import ViewForge.Proofs.Project.Preservation
import ViewForge.Project.Command

namespace ViewForge.Project

open Text

variable {α β : Type}

section Report

/-- Actions on behalf of a file that leave its path and its error as they are reported. -/
def FileRun.Keeps (action : FileRun α) : Prop :=
  ∀ (report : FileReport) (session : Session),
    (action.outcome report session).1.2.path = report.path ∧
      (action.outcome report session).1.2.error = report.error

namespace FileRun.Keeps

theorem pure (x : α) : Keeps (Pure.pure x) := fun _ _ ↦ ⟨rfl, rfl⟩

theorem throw (failure : Failure) : Keeps (MonadExcept.throw failure : FileRun α) :=
  fun _ _ ↦ ⟨rfl, rfl⟩

theorem ofRun (action : Run α) : Keeps (FileRun.ofRun action) := fun _ _ ↦ ⟨rfl, rfl⟩

theorem modify {f : FileReport → FileReport}
    (hf : ∀ report, (f report).path = report.path ∧ (f report).error = report.error) :
    Keeps (modifyThe FileReport f) := fun report _ ↦ hf report

theorem bind {x : FileRun α} {f : α → FileRun β} (hx : Keeps x) (hf : ∀ a, Keeps (f a)) :
    Keeps (x >>= f) := by
  intro report session
  have hfirst := hx report session
  rcases h : x.outcome report session with ⟨⟨e | a, report₁⟩, session₁⟩ <;> rw [h] at hfirst
  · rw [FileRun.outcome_bind_error h]
    exact hfirst
  · rw [FileRun.outcome_bind_ok h]
    have hsecond := hf a report₁ session₁
    exact ⟨hsecond.1.trans hfirst.1, hsecond.2.trans hfirst.2⟩

theorem writeArtifacts (s : Settings) (c : Component) (namespaceName : Text)
    (files : List (ArtifactKind × Text)) :
    Keeps (Project.writeArtifacts s c namespaceName files) := by
  induction files with
  | nil => exact pure _
  | cons file files ih =>
    refine bind (ofRun _) fun written ↦ bind (modify fun _ ↦ ⟨rfl, rfl⟩) fun _ ↦ ?_
    split
    · exact bind (ofRun _) fun _ ↦ ih
    · exact ih

theorem logWarnings (c : Component) (warnings : List Text) :
    Keeps (Project.logWarnings c warnings) := by
  induction warnings with
  | nil => exact pure _
  | cons w warnings ih => exact bind (ofRun _) fun _ ↦ ih

theorem writeComponent (s : Settings) (c : Component) (namespaceName : Text) (multiple : Bool)
    (files : List (ArtifactKind × Text)) :
    Keeps (Project.writeComponent s c namespaceName multiple files) := by
  have hfiles : Keeps (do
      Project.writeArtifacts s c namespaceName files
      if s.verbose then Project.logWarnings c c.warnings : FileRun Unit) := by
    refine bind (writeArtifacts s c namespaceName files) fun _ ↦ ?_
    split
    · exact logWarnings c c.warnings
    · exact pure _
  refine bind (ofRun _) fun target ↦ ?_
  cases target with
  | none => exact hfiles
  | some target => exact bind (ofRun _) fun _ ↦ hfiles

theorem convertFile (s : Settings) (base : Path) (multiple : Bool) (p : Path) :
    Keeps (Project.convertFile s base multiple p) := by
  refine bind (ofRun _) fun source ↦ ?_
  split
  · exact throw _
  · refine bind (ofRun _) fun c ↦ bind (modify fun _ ↦ ⟨rfl, rfl⟩) fun _ ↦ ?_
    split
    · exact fun _ _ ↦ ⟨rfl, rfl⟩
    · exact writeComponent s _ _ multiple _

end FileRun.Keeps

end Report

section Attempts

/-- How the conversion of a file went: what it ordered, why it failed if it did, what is reported of
it, and the store it left. -/
structure Attempt where
  order : Order
  failure : Option Failure
  report : FileReport
  store : Store

/-- The conversion of a file as the store stands. What was written before it failed stays. -/
def attempt (s : Settings) (base : Path) (multiple : Bool) (console : Console) (st : Store)
    (p : Path) : Attempt :=
  match (convertFile s base multiple p).outcome { path := p.toText } { store := st, console } with
  | ((.ok _, report), session) =>
    { order := orderOf s base multiple st p, failure := none, report, store := session.store }
  | ((.error failure, report), session) =>
    { order := orderOf s base multiple st p
      failure := some failure
      report := { report with error := some failure.message }
      store := session.store }

/-- The conversions of files in turn, each from the store that the one before it left. -/
def attempts (s : Settings) (base : Path) (multiple : Bool) (console : Console) :
    Store → List Path → List Attempt
  | _, [] => []
  | st, p :: rest =>
    let a := attempt s base multiple console st p
    a :: attempts s base multiple console a.store rest

def attemptsOf (s : Settings) (pattern : Text) (session : Session) : List Attempt :=
  let files := matching session.store pattern
  attempts s (patternBase pattern) (1 < files.length) session.console session.store files

def storeAfter (st : Store) (tried : List Attempt) : Store := (tried.map (·.store)).getLastD st

def Attempt.lines (strict : Bool) (a : Attempt) : List (Level × Text) :=
  (.debug, detailLine a.report.path) ::
    if strict then []
    else a.failure.toList.map fun failure ↦ (.error, failureLine a.report.path failure)

def Console.Takes (console : Console) (lines : List (Level × Text)) : Prop :=
  ∀ line ∈ lines, console.refusal? line.1 line.2 = none

instance (console : Console) (lines : List (Level × Text)) : Decidable (console.Takes lines) :=
  inferInstanceAs (Decidable (∀ line ∈ lines, console.refusal? line.1 line.2 = none))

/-- What was done for files that were tried, file by file, and that their reports say so. -/
structure Performed (s : Settings) (st : Store) (tried : List Attempt) (parts : List (List Deed)) :
    Prop where
  accounts : Accounts s (tried.map (·.order)) st parts.flatten (storeAfter st tried)
  reported : List.Forall₂ (fun a part ↦ Reported s.dryRun a.order part a.report) tried parts

variable (s : Settings) (base : Path) (multiple : Bool) (console : Console)

theorem storeAfter_cons (st : Store) (a : Attempt) (tried : List Attempt) :
    storeAfter st (a :: tried) = storeAfter a.store tried := List.getLastD_cons

theorem order_attempt (st : Store) (p : Path) :
    (attempt s base multiple console st p).order = orderOf s base multiple st p := by
  rw [attempt]
  split <;> rfl

theorem path_attempt (st : Store) (p : Path) :
    (attempt s base multiple console st p).report.path = p.toText := by
  have hkeeps := (FileRun.Keeps.convertFile s base multiple p { path := p.toText }
    { store := st, console }).1
  rw [attempt]
  split <;> rename_i h <;> rw [h] at hkeeps <;> exact hkeeps

theorem error_attempt (st : Store) (p : Path) :
    (attempt s base multiple console st p).report.error =
      (attempt s base multiple console st p).failure.map Failure.message := by
  have hkeeps := (FileRun.Keeps.convertFile s base multiple p { path := p.toText }
    { store := st, console }).2
  rw [attempt]
  split
  · rename_i h
    rw [h] at hkeeps
    exact hkeeps
  · rfl

theorem attempts_take (st : Store) (files : List Path) (n : Nat) :
    attempts s base multiple console st (files.take n) =
      (attempts s base multiple console st files).take n := by
  induction files generalizing st n with
  | nil => simp [attempts]
  | cons p files ih =>
    cases n with
    | zero => rfl
    | succ n => rw [List.take_succ_cons, attempts, attempts, List.take_succ_cons, ih]

/-- Each file is reported once, under its path, with the failure of its conversion. -/
theorem reports_attempts (st : Store) (files : List Path) :
    (attempts s base multiple console st files).map (·.report.path) = files.map Path.toText ∧
      ∀ a ∈ attempts s base multiple console st files,
        a.report.error = a.failure.map Failure.message := by
  induction files generalizing st with
  | nil => exact ⟨rfl, fun _ ha ↦ nomatch ha⟩
  | cons p files ih =>
    obtain ⟨hpaths, herrors⟩ := ih (attempt s base multiple console st p).store
    rw [attempts, List.map_cons, path_attempt, hpaths, List.forall_mem_cons]
    exact ⟨rfl, error_attempt s base multiple console st p, herrors⟩

theorem any_failed {tried : List Attempt}
    (h : ∀ a ∈ tried, a.report.error = a.failure.map Failure.message) :
    (tried.map (·.report)).any (!·.success) = tried.any (·.failure.isSome) := by
  induction tried with
  | nil => rfl
  | cons a tried ih =>
    rw [List.forall_mem_cons] at h
    rw [List.map_cons, List.any_cons, List.any_cons, ih h.2, FileReport.success, h.1]
    simp

theorem performed_attempt (st : Store) (p : Path) :
    ∃ part, Accounts s [(attempt s base multiple console st p).order] st part
        (attempt s base multiple console st p).store ∧
      Reported s.dryRun (attempt s base multiple console st p).order part
        (attempt s base multiple console st p).report := by
  obtain ⟨part, hpart, hdry⟩ := performs_convertFile s base multiple p { path := p.toText }
    { store := st, console }
  have hcarried := hpart.carried
  have hwritten := hpart.written
  have hcomplete := hpart.complete
  have hrequests : (part.map (·.request)).Sublist
      ([orderOf s base multiple st p].flatMap Order.requests) := by
    rw [List.flatMap_singleton]
    exact hpart.requests
  have hsame {report : FileReport} (h : report.written = (pathsWritten part).map Path.toText) :
      report.written.length = (pathsWritten part).length := by rw [h, List.length_map]
  refine ⟨part, ?_⟩
  rw [order_attempt, attempt]
  split <;> rename_i h <;> rw [h] at hcarried hwritten hcomplete
  · refine ⟨⟨hcarried, hrequests, hdry⟩, hwritten, hsame hwritten ▸ hpart.artifacts, ?_⟩
    intro hwet _
    rw [hsame hwritten]
    exact hcomplete hwet rfl
  · exact ⟨⟨hcarried, hrequests, hdry⟩, hwritten, hsame hwritten ▸ hpart.artifacts,
      fun _ herror ↦ nomatch herror⟩

theorem performed_attempts (st : Store) (files : List Path) :
    ∃ parts, Performed s st (attempts s base multiple console st files) parts := by
  induction files generalizing st with
  | nil => exact ⟨[], ⟨.nil _, List.nil_sublist _, fun _ ↦ rfl⟩, .nil⟩
  | cons p files ih =>
    obtain ⟨part, haccounts, hreported⟩ := performed_attempt s base multiple console st p
    obtain ⟨parts, hparts⟩ := ih (attempt s base multiple console st p).store
    refine ⟨part :: parts, ?_, .cons hreported hparts.reported⟩
    rw [attempts, storeAfter_cons]
    exact haccounts.append hparts.accounts

variable {s base multiple}

/-- A file is processed as it is tried; the settings decide what a failure comes to. -/
theorem outcome_processFile {p : Path} {session : Session} {a : Attempt}
    (ha : attempt s base multiple session.console session.store p = a)
    (hheard : session.console.Takes (a.lines s.strict)) :
    ∃ session', session'.store = a.store ∧ session'.console = session.console ∧
      outcome (processFile s base multiple p) session =
        (match a.failure with
        | some failure => if s.strict then .error failure else .ok a.report
        | none => .ok a.report, session') := by
  have hpath : a.report.path = p.toText := by rw [← ha, path_attempt]
  obtain ⟨hdetail, hfailure⟩ := List.forall_mem_cons.1 hheard
  rw [hpath] at hdetail hfailure
  rcases processFile_cases s base multiple p session with
    ⟨reason, hrefused, -⟩ | ⟨-, session₁, halike, hsettled⟩
  · cases hdetail.symm.trans hrefused
  let quiet : Session := { store := session.store, console := session.console }
  have hquiet : session₁.Alike quiet := ⟨halike.store, halike.console⟩
  obtain ⟨hsame, hafter, hconsole⟩ :
      ((convertFile s base multiple p).outcome { path := p.toText } session₁).1 =
          ((convertFile s base multiple p).outcome { path := p.toText } quiet).1 ∧
        ((convertFile s base multiple p).outcome { path := p.toText } session₁).2.Alike
          ((convertFile s base multiple p).outcome { path := p.toText } quiet).2 ∧
        ((convertFile s base multiple p).outcome { path := p.toText } session₁).2.console =
          session₁.console := FileRun.Blind.convertFile s base multiple p { path := p.toText } hquiet
  rw [hsame] at hsettled
  rw [attempt] at ha
  generalize ((convertFile s base multiple p).outcome { path := p.toText } session₁).2 = session₂
    at hsettled hafter hconsole
  change (match (convertFile s base multiple p).outcome { path := p.toText } quiet with
    | ((.ok _, report), session') => _
    | ((.error failure, report), session') => _) = a at ha
  generalize (convertFile s base multiple p).outcome { path := p.toText } quiet = converted
    at ha hsettled hafter
  obtain ⟨⟨result, report⟩, session₃⟩ := converted
  have hconsole₂ : session₂.console = session.console := hconsole.trans halike.console
  generalize outcome (processFile s base multiple p) session = ran at hsettled ⊢
  cases result with
  | ok _ =>
    subst ha
    cases hsettled
    exact ⟨session₂, hafter.store, hconsole₂, rfl⟩
  | error failure =>
    subst ha
    cases hsettled with
    | strict hstrict =>
      refine ⟨session₂, hafter.store, hconsole₂, ?_⟩
      rw [hstrict]
      rfl
    | unheard hlax hrefused =>
      rw [hlax] at hfailure
      rw [hconsole₂] at hrefused
      cases (hfailure _ List.mem_cons_self).symm.trans hrefused
    | @reported _ _ _ logs hlax =>
      refine ⟨{ session₂ with logs }, hafter.store, hconsole₂, ?_⟩
      rw [hlax]
      rfl

/-- A failure does not end a run that is not strict, nor is there one to end it if none occurs. -/
theorem outcome_processFiles {files : List Path} {session : Session} {tried : List Attempt}
    (result : BatchResult)
    (htried : attempts s base multiple session.console session.store files = tried)
    (h : s.strict = false ∨ ∀ a ∈ tried, a.failure = none)
    (hheard : session.console.Takes (tried.flatMap (Attempt.lines s.strict))) :
    ∃ session', session'.store = storeAfter session.store tried ∧
      session'.console = session.console ∧
      outcome (processFiles s base multiple result files) session =
        (.ok ((tried.map (·.report)).foldl BatchResult.record result), session') := by
  induction files generalizing result session tried with
  | nil =>
    subst htried
    exact ⟨session, rfl, rfl, rfl⟩
  | cons p files ih =>
    subst htried
    rw [attempts] at h hheard ⊢
    rw [List.flatMap_cons, Console.Takes, List.forall_mem_append] at hheard
    obtain ⟨session₁, hstore₁, hconsole₁, hfirst⟩ := outcome_processFile rfl hheard.1
    have hok : outcome (processFile s base multiple p) session =
        (.ok (attempt s base multiple session.console session.store p).report, session₁) := by
      rw [hfirst]
      split
      · rename_i failure hfailure
        have hlax : s.strict = false := by
          refine h.resolve_right fun hall ↦ ?_
          cases hfailure.symm.trans (hall _ List.mem_cons_self)
        rw [hlax]
        rfl
      · rfl
    have hrest : attempts s base multiple session₁.console session₁.store files =
        attempts s base multiple session.console
          (attempt s base multiple session.console session.store p).store files := by
      rw [hstore₁, hconsole₁]
    have hlater : session₁.console.Takes ((attempts s base multiple session.console
        (attempt s base multiple session.console session.store p).store files).flatMap
          (Attempt.lines s.strict)) := by
      rw [hconsole₁]
      exact hheard.2
    obtain ⟨session₂, hstore₂, hconsole₂, hfiles⟩ := ih (result.record _) hrest
      (h.imp_right fun hall a ha ↦ hall a (List.mem_cons_of_mem _ ha)) hlater
    refine ⟨session₂, ?_, hconsole₂.trans hconsole₁, ?_⟩
    · rw [storeAfter_cons, hstore₂, hstore₁]
    · rw [processFiles, outcome_bind_ok hok]
      exact hfiles

/-- The first failure ends a strict run, whatever files were to come. -/
theorem outcome_processFiles_of_failure {files : List Path} {session : Session}
    {done later : List Attempt} {last : Attempt} {failure : Failure} (result : BatchResult)
    (hstrict : s.strict = true)
    (htried : attempts s base multiple session.console session.store files = done ++ last :: later)
    (hdone : ∀ a ∈ done, a.failure = none) (hlast : last.failure = some failure)
    (hheard : session.console.Takes ((done ++ [last]).flatMap (Attempt.lines s.strict))) :
    ∃ session', session'.store = last.store ∧ session'.console = session.console ∧
      outcome (processFiles s base multiple result files) session = (.error failure, session') ∧
      outcome (processFiles s base multiple result (files.take (done.length + 1))) session =
        (.error failure, session') := by
  induction done generalizing result files session with
  | nil =>
    cases files with
    | nil => cases htried
    | cons p files =>
      obtain ⟨rfl, -⟩ := List.cons.inj htried
      rw [List.nil_append, List.flatMap_singleton] at hheard
      obtain ⟨session', hstore, hconsole, hend⟩ := outcome_processFile rfl hheard
      rw [hlast, hstrict] at hend
      exact ⟨session', hstore, hconsole, outcome_bind_error hend _, outcome_bind_error hend _⟩
  | cons a done ih =>
    cases files with
    | nil => cases htried
    | cons p files =>
      obtain ⟨rfl, hrest⟩ := List.cons.inj htried
      rw [List.forall_mem_cons] at hdone
      rw [List.cons_append, List.flatMap_cons, Console.Takes, List.forall_mem_append] at hheard
      obtain ⟨session₁, hstore₁, hconsole₁, hfirst⟩ := outcome_processFile rfl hheard.1
      rw [hdone.1] at hfirst
      rw [← hstore₁, ← hconsole₁] at hrest
      have hlater := hheard.2
      rw [← hconsole₁] at hlater
      obtain ⟨session₂, hstore₂, hconsole₂, hall, hreached⟩ :=
        ih (result.record _) hrest hdone.2 hlater
      refine ⟨session₂, hstore₂, hconsole₂.trans hconsole₁, ?_, ?_⟩
      · rw [processFiles, outcome_bind_ok hfirst]
        exact hall
      · rw [List.length_cons, List.take_succ_cons, processFiles, outcome_bind_ok hfirst]
        exact hreached

end Attempts

section Sums

/-- The counts and lists of a batch are those of its reports. -/
structure BatchResult.Sums (b : BatchResult) : Prop where
  reports : b.successCount + b.errorCount = b.reports.length
  errorCount : b.errorCount = b.errors.length
  errors : b.errors = b.reports.filterMap fun r ↦ r.error.map (r.path, ·)
  warningCount : b.warningCount = ((b.reports.filter (·.success)).flatMap (·.warnings)).length
  warnings : b.warnings =
    ((b.reports.filter (·.success)).filter (!·.warnings.isEmpty)).map fun r ↦ (r.path, r.warnings)

theorem BatchResult.Sums.empty : BatchResult.Sums {} := ⟨rfl, rfl, rfl, rfl, rfl⟩

theorem BatchResult.Sums.record {b : BatchResult} (h : b.Sums) (r : FileReport) :
    (b.record r).Sums := by
  have hreports := h.reports
  cases herror : r.error with
  | some e =>
    have hfailed : r.success = false := by rw [FileReport.success, herror]; rfl
    have hrecord : b.record r = { b with
        errorCount := b.errorCount + 1, errors := b.errors ++ [(r.path, e)],
        reports := b.reports ++ [r] } := by
      rw [BatchResult.record, herror]
    rw [hrecord]
    constructor
    · simp only [List.length_append, List.length_singleton]
      omega
    · simp only [List.length_append, List.length_singleton, h.errorCount]
    · simp [h.errors, herror]
    · simp [h.warningCount, hfailed]
    · simp [h.warnings, hfailed]
  | none =>
    have hdone : r.success = true := by rw [FileReport.success, herror]; rfl
    have hrecord : b.record r = { b with
        successCount := b.successCount + 1, warningCount := b.warningCount + r.warnings.length,
        warnings := b.warnings ++ [r].filterMap fun r ↦
          if r.warnings.isEmpty then none else some (r.path, r.warnings),
        reports := b.reports ++ [r] } := by
      rw [BatchResult.record, herror]
      cases hwarnings : r.warnings <;> simp [hwarnings]
    rw [hrecord]
    constructor
    · simp only [List.length_append, List.length_singleton]
      omega
    · exact h.errorCount
    · simp [h.errors, herror]
    · simp [h.warningCount, hdone]
    · cases hwarnings : r.warnings <;> simp [h.warnings, hdone, hwarnings]

theorem BatchResult.Sums.foldl {b : BatchResult} (h : b.Sums) (reports : List FileReport) :
    (reports.foldl BatchResult.record b).Sums ∧
      (reports.foldl BatchResult.record b).reports = b.reports ++ reports := by
  induction reports generalizing b with
  | nil => exact ⟨h, (List.append_nil _).symm⟩
  | cons r reports ih =>
    obtain ⟨hsums, hreports⟩ := ih (h.record r)
    rw [reports_record, List.append_assoc] at hreports
    exact ⟨hsums, hreports⟩

theorem BatchResult.Sums.hasErrors {b : BatchResult} (h : b.Sums) :
    b.hasErrors = b.reports.any (!·.success) := by
  rw [Bool.eq_iff_iff, BatchResult.hasErrors, decide_eq_true_iff, h.errorCount, h.errors,
    List.length_pos_iff, Ne, List.filterMap_eq_nil_iff]
  simp [FileReport.success, Option.ne_none_iff_isSome]

end Sums

section Command

variable {session session' : Session}

theorem outcome_log_of_taken {level : Level} {message : Text}
    (h : session.console.refusal? level message = none) :
    ∃ session', session'.store = session.store ∧ session'.console = session.console ∧
      outcome (log level message) session = (.ok (), session') := by
  rcases log_cases level message session with ⟨reason, hrefused, -⟩ | ⟨-, logs, hlog⟩
  · cases h.symm.trans hrefused
  · exact ⟨{ session with logs }, rfl, rfl, hlog⟩

theorem outcome_printSummary {b : BatchResult}
    (h : session.console.Takes (closingLine? b).toList) :
    ∃ session', session'.store = session.store ∧
      outcome (printSummary b) session = (.ok (), session') := by
  rw [printSummary]
  dsimp only
  cases hline : closingLine? b with
  | none =>
    split
    · exact ⟨(outcome (printReport b) session).2, rfl, rfl⟩
    · exact ⟨session, rfl, rfl⟩
  | some line =>
    have hclosing (printed : Session) (hstore : printed.store = session.store)
        (hconsole : printed.console = session.console) : ∃ session',
          session'.store = session.store ∧
            outcome (log line.1 line.2) printed = (.ok (), session') := by
      have htaken := h line (by rw [hline]; exact List.mem_singleton_self _)
      rw [← hconsole] at htaken
      obtain ⟨session₂, hstore₂, -, hlog⟩ := outcome_log_of_taken htaken
      exact ⟨session₂, hstore₂.trans hstore, hlog⟩
    split
    · exact hclosing (outcome (printReport b) session).2 rfl rfl
    · exact hclosing session rfl rfl

theorem outcome_convertAll (s : Settings) (pattern : Text) (session : Session) :
    outcome (convertAll s pattern) session =
      match outcome (runBatch s pattern) (session.setVerbose s.verbose) with
      | (.error failure, session') =>
        outcome (do log .error (abortLine failure); return .failed) session'
      | (.ok b, session') => outcome (do
          if !s.dryRun then printSummary b
          return if b.hasErrors then .someFailed else .done) session' := by
  have hset : outcome (modify (·.setVerbose s.verbose) : Run Unit) session =
      (.ok (), session.setVerbose s.verbose) := rfl
  rcases hbatch : outcome (runBatch s pattern) (session.setVerbose s.verbose) with
    ⟨result, session'⟩
  have hlift : outcome (ExceptT.lift (runBatch s pattern).run : Run (Except Failure BatchResult))
      (session.setVerbose s.verbose) = (.ok result, session') := by
    change (Except.ok (outcome (runBatch s pattern) _).1, (outcome (runBatch s pattern) _).2) = _
    rw [hbatch]
  rw [convertAll, outcome_bind_ok hset, outcome_bind_ok hlift]
  cases result <;> rfl

/-- The command ends as its batch does, if the console takes what it says of it. -/
theorem outcome_convertAll_of_ok {s : Settings} {pattern : Text} {b : BatchResult}
    (hbatch : outcome (runBatch s pattern) (session.setVerbose s.verbose) = (.ok b, session'))
    (hclosing : session'.console.Takes (if s.dryRun then [] else (closingLine? b).toList)) :
    ∃ session'', session''.store = session'.store ∧
      outcome (convertAll s pattern) session =
        (.ok (if b.hasErrors then .someFailed else .done), session'') := by
  rw [outcome_convertAll, hbatch]
  cases hdry : s.dryRun with
  | true => exact ⟨session', rfl, rfl⟩
  | false =>
    rw [hdry] at hclosing
    obtain ⟨session'', hstore, hprinted⟩ := outcome_printSummary hclosing
    exact ⟨session'', hstore, outcome_bind_ok hprinted _⟩

theorem outcome_convertAll_of_error {s : Settings} {pattern : Text} {failure : Failure}
    (hbatch : outcome (runBatch s pattern) (session.setVerbose s.verbose) =
      (.error failure, session'))
    (hclosing : session'.console.refusal? .error (abortLine failure) = none) :
    ∃ session'', session''.store = session'.store ∧
      outcome (convertAll s pattern) session = (.ok .failed, session'') := by
  obtain ⟨session'', hstore, -, hlog⟩ := outcome_log_of_taken hclosing
  rw [outcome_convertAll, hbatch]
  exact ⟨session'', hstore, outcome_bind_ok hlog _⟩

theorem outcome_convertWith {s : Settings} {pattern : Text} {given : List (Text × Data)}
    (hload : loadSettings session.store (patternBase pattern) given = .ok s) :
    outcome (convertWith pattern given) session = outcome (convertAll s pattern) session := by
  have hget : outcome (getThe Session : Run Session) session = (.ok session, session) := rfl
  rw [convertWith, outcome_bind_ok hget, hload]

theorem pairwise_matching (st : Store) (pattern : Text) :
    (matching st pattern).Pairwise fun p q ↦ p.le q = true := by
  have hle (p q : Path) : p.le q = true ↔ ¬q.parts < p.parts := by
    rw [Path.le, Bool.not_eq_true', decide_eq_false_iff_not]
  rw [matching]
  split
  · exact .nil
  · apply List.pairwise_mergeSort
    · intro p q r hpq hqr
      rw [hle] at *
      exact List.not_lt.2 (List.le_trans (List.not_lt.1 hpq) (List.not_lt.1 hqr))
    · intro p q
      rw [Bool.or_eq_true, hle, hle, List.not_lt, List.not_lt]
      exact List.le_total p.parts q.parts

theorem outcome_runBatch_of_ne_nil (s : Settings) {pattern : Text} (session : Session)
    (hfiles : matching session.store pattern ≠ [])
    (h : session.console.refusal? .info (announcement pattern (matching session.store pattern)) =
      none) :
    ∃ announced, announced.store = session.store ∧ announced.console = session.console ∧
      outcome (log .info (announcement pattern (matching session.store pattern))) session =
        (.ok (), announced) ∧
      outcome (runBatch s pattern) session =
        outcome (processFiles s (patternBase pattern) (1 < (matching session.store pattern).length)
          {} (matching session.store pattern)) announced := by
  obtain ⟨p, files, hmatching⟩ := List.exists_cons_of_ne_nil hfiles
  obtain ⟨announced, hstore, hconsole, hlog⟩ := outcome_log_of_taken h
  refine ⟨announced, hstore, hconsole, hlog, ?_⟩
  rw [outcome_runBatch s hmatching, ← hmatching, hlog]

/-- What a run says itself: before its first file, of each file that is tried, and at its end. -/
def batchLines (s : Settings) (pattern : Text) (files : List Path) (tried : List Attempt)
    (closing : List (Level × Text)) : List (Level × Text) :=
  (.info, announcement pattern files) :: tried.flatMap (Attempt.lines s.strict) ++ closing

section Mixed

/-- A source without a component between two that have one. -/
def mixed : Store where
  current := ["work"]
  entries :=
    [(["work"], .directory), (["work", "a"], .directory), (["work", "b"], .directory),
     (["work", "c"], .directory), (["work", "a", "index.jsx"], .file (encode (rivalSource "one"))),
     (["work", "b", "index.jsx"], .file []),
     (["work", "c", "index.jsx"], .file (encode (rivalSource "two")))]

def mixedSession : Session := { store := mixed, console := tagConsole }

def mixedOptions (strict : Bool) : List (Text × Data) :=
  [("generate_tests".toList, .bool false), ("strict", .bool strict)]

def mixedSettings (strict : Bool) : Settings where
  root := Path.ofText "/work"
  tests := false
  strict := strict

theorem matching_mixed :
    matching mixed "**/index.jsx" =
      [Path.ofText "a/index.jsx", Path.ofText "b/index.jsx", Path.ofText "c/index.jsx"] :=
  matching_eq (by decide) (by decide +kernel) (by decide)

def mixedAttempt (strict : Bool) (st : Store) (path : Text) : Attempt :=
  attempt (mixedSettings strict) (patternBase "**/index.jsx") true tagConsole st (Path.ofText path)

def mixedFirst (strict : Bool) : Attempt := mixedAttempt strict mixed "a/index.jsx"

def mixedSecond (strict : Bool) : Attempt :=
  mixedAttempt strict (mixedFirst strict).store "b/index.jsx"

def mixedTried (strict : Bool) : List Attempt :=
  [mixedFirst strict, mixedSecond strict,
    mixedAttempt strict (mixedSecond strict).store "c/index.jsx"]

theorem attemptsOf_mixed (strict : Bool) :
    attemptsOf (mixedSettings strict) "**/index.jsx" mixedSession = mixedTried strict := by
  have hfiles : matching mixedSession.store "**/index.jsx" = _ := matching_mixed
  rw [attemptsOf, hfiles]
  rfl

/-- How the three sources fare, and that the console takes what is said of them. -/
theorem tried_mixed :
    let result := ((mixedTried false).map (·.report)).foldl BatchResult.record {}
    tagConsole.Takes (batchLines (mixedSettings false) "**/index.jsx"
        (["a/index.jsx".toList, "b/index.jsx", "c/index.jsx"].map Path.ofText) (mixedTried false)
        (closingLine? result).toList) ∧
      (mixedTried false).map (fun a ↦ (a.report.path, a.report.written, a.report.error)) =
        [("a/index.jsx".toList, ["app/components/ui/note_component.rb".toList,
            "app/components/ui/note_component.html.erb"], none),
         ("b/index.jsx", [], some "Could not determine component in file: b/index.jsx".toList),
         ("c/index.jsx", ["app/components/ui/note_component.rb.new",
            "app/components/ui/note_component.html.erb.new"], none)] ∧
      (storeAfter mixed (mixedTried false)).get? (noteTemplate.beside ".new") =
        some (.file (encode "<p>two</p>\n")) ∧
      (mixedTried false).any (·.failure.isSome) = true := by
  decide +kernel

theorem failed_mixed :
    (mixedFirst true).failure.isNone = true ∧ (mixedSecond true).failure.isSome = true ∧
      (mixedSecond true).store.get? noteTemplate = some (.file (encode "<p>one</p>\n")) ∧
      (mixedSecond true).store.get? (noteTemplate.beside ".new") = none := by
  decide +kernel

theorem taken_mixed :
    tagConsole.Takes (batchLines (mixedSettings true) "**/index.jsx"
        (["a/index.jsx".toList, "b/index.jsx", "c/index.jsx"].map Path.ofText)
        [mixedFirst true, mixedSecond true]
        [(.error, abortLine ((mixedSecond true).failure.get failed_mixed.2.1))]) ∧
      ((mixedSecond true).failure.get failed_mixed.2.1).message =
        "Could not determine component in file: b/index.jsx" := by
  decide +kernel

end Mixed

section Strays

def nothing : Session where
  store := { current := ["work"], entries := [(["work"], .directory)] }
  console := tagConsole

/-- A source without a component whose path holds an end tag. -/
def bracketed : Session where
  store :=
    { current := ["work"]
      entries :=
        [(["work"], .directory), (["work", "a["], .directory), (["work", "a[", "b].jsx"], .file [])] }
  console := tagConsole

def straySettings : Settings where
  root := Path.ofText "/work"

end Strays

end Command

end ViewForge.Project
