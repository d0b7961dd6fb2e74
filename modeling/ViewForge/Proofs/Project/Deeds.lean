import Mathlib.Data.List.Forall2
import ViewForge.Proofs.Project.Logging

namespace ViewForge.Project

open Text

section Orders

/-- What is to be written for a component: its dump, then its files. -/
structure Order where
  dump : Option (Path × Text) := none
  artifacts : List (Path × Text) := []

def Order.requests (o : Order) : List WriteRequest :=
  o.dump.toList.map (fun d ↦ .dump d.1 d.2) ++ o.artifacts.map fun a ↦ .artifact a.1 a.2

def targets (s : Settings) (c : Component) (namespaceName : Text)
    (files : List (ArtifactKind × Text)) : List (Path × Text) :=
  files.map fun (kind, text) ↦ (artifactPath c.snakeName namespaceName s.dest s.root kind, text)

def componentOrder (s : Settings) (c : Component) (namespaceName : Text) (multiple : Bool) :
    Order where
  dump := s.irOutput.bind fun base ↦ (dumpPath? base c.snakeName multiple).map (·, c.toJson)
  artifacts := targets s c namespaceName (artifacts s c namespaceName)

def Store.sourceAt? (st : Store) (p : Path) : Option Text :=
  match st.readAt p with
  | .ok bytes => (decode bytes).toOption.map plainLineBreaks
  | .error _ => none

def orderOf (s : Settings) (base : Path) (multiple : Bool) (st : Store) (p : Path) : Order :=
  match (st.sourceAt? p).bind (componentOf? s p.toText) with
  | some c => componentOrder s c (namespaceFor s base p) multiple
  | none => {}

/-- What files order in turn, each as the store stands then, until the run is given up. -/
def orders (s : Settings) (base : Path) (multiple : Bool) : Session → List Path → List Order
  | _, [] => []
  | session, p :: rest =>
    orderOf s base multiple session.store p ::
      match outcome (processFile s base multiple p) session with
      | (.ok _, session) => orders s base multiple session rest
      | (.error _, _) => []

def ordersOf (s : Settings) (pattern : Text) (session : Session) : List Order :=
  let files := matching session.store pattern
  match outcome (log .info (announcement pattern files)) session with
  | (.ok _, session) => orders s (patternBase pattern) (1 < files.length) session files
  | (.error _, _) => []

end Orders

section Deeds

/-- A request that was taken up, and where the text of an artifact was written, if that is told. -/
structure Deed where
  request : WriteRequest
  written : Option Path

inductive Carried (update : Bool) : Store → List Deed → Store → Prop
  | nil (st : Store) : Carried update st [] st
  | cons {st st₁ st₂ : Store} {d : Deed} {ds : List Deed} :
      Carries update st d.request d.written st₁ → Carried update st₁ ds st₂ →
        Carried update st (d :: ds) st₂

variable {update : Bool} {st st₁ st₂ : Store} {ds es : List Deed}

theorem Carried.append (h : Carried update st ds st₁) (h' : Carried update st₁ es st₂) :
    Carried update st (ds ++ es) st₂ := by
  induction h with
  | nil => exact h'
  | cons hd _ ih => exact .cons hd (ih h')

def pathsWritten (ds : List Deed) : List Path := ds.filterMap (·.written)

structure Reported (dry : Bool) (o : Order) (ds : List Deed) (report : FileReport) : Prop where
  written : report.written = (pathsWritten ds).map Path.toText
  artifacts : List.Forall₂ (fun a w ↦ ⟨.artifact a.1 a.2, some w⟩ ∈ ds)
    (o.artifacts.take report.written.length) (pathsWritten ds)
  complete : dry = false → report.error = none → report.written.length = o.artifacts.length

end Deeds

section File

variable {α β : Type}

/-- How an action on behalf of a file ends, with the report and the session it leaves. -/
def FileRun.outcome (action : FileRun α) (report : FileReport) (session : Session) :
    (Except Failure α × FileReport) × Session := (action.run.run report).run session

variable {x : FileRun α} {report report' : FileReport} {session session' : Session}

theorem FileRun.outcome_bind_ok {a : α}
    (h : x.outcome report session = ((.ok a, report'), session')) (f : α → FileRun β) :
    (x >>= f).outcome report session = (f a).outcome report' session' := by
  change (match x.outcome report session with
    | (r, session) => ((ExceptT.bindCont f r.1).run r.2).run session) = _
  rw [h]
  rfl

theorem FileRun.outcome_bind_error {e : Failure}
    (h : x.outcome report session = ((.error e, report'), session')) (f : α → FileRun β) :
    (x >>= f).outcome report session = ((.error e, report'), session') := by
  change (match x.outcome report session with
    | (r, session) => ((ExceptT.bindCont f r.1).run r.2).run session) = _
  rw [h]
  rfl

theorem FileRun.outcome_ofRun (action : Run α) (report : FileReport) (session : Session) :
    (FileRun.ofRun action).outcome report session =
      (((Project.outcome action session).1, report), (Project.outcome action session).2) := rfl

theorem FileRun.log_cases (level : Level) (message : Text) (report : FileReport)
    (session : Session) : ∃ result session', session'.store = session.store ∧
      (FileRun.log level message).outcome report session = ((result, report), session') :=
  ⟨_, _, store_log level message session, rfl⟩

theorem logWarnings_cases (c : Component) (warnings : List Text) (report : FileReport)
    (session : Session) : ∃ result session', session'.store = session.store ∧
      (logWarnings c warnings).outcome report session = ((result, report), session') := by
  induction warnings generalizing session with
  | nil => exact ⟨.ok (), session, rfl, rfl⟩
  | cons w warnings ih =>
    obtain ⟨result, session₁, hstore₁, h₁⟩ := FileRun.log_cases .warning _ report session
    cases result with
    | error e => exact ⟨.error e, session₁, hstore₁, FileRun.outcome_bind_error h₁ _⟩
    | ok _ =>
      obtain ⟨result, session₂, hstore₂, h₂⟩ := ih session₁
      exact ⟨result, session₂, hstore₂.trans hstore₁, (FileRun.outcome_bind_ok h₁ _).trans h₂⟩

/-- An action on behalf of a file does its deeds for an order, in full if it succeeds. -/
structure Performs (s : Settings) (o : Order) (action : FileRun Unit) (report : FileReport)
    (session : Session) (ds : List Deed) : Prop where
  carried : Carried s.update session.store ds (action.outcome report session).2.store
  requests : (ds.map (·.request)).Sublist o.requests
  artifacts : List.Forall₂ (fun a w ↦ ⟨.artifact a.1 a.2, some w⟩ ∈ ds)
    (o.artifacts.take (pathsWritten ds).length) (pathsWritten ds)
  written : (action.outcome report session).1.2.written =
    report.written ++ (pathsWritten ds).map Path.toText
  complete : s.dryRun = false → (action.outcome report session).1.1 = .ok () →
    (pathsWritten ds).length = o.artifacts.length

theorem Performs.of_outcome {s : Settings} {o : Order} {action action' : FileRun Unit}
    {ds : List Deed} (h : Performs s o action report session ds)
    (hreport : report'.written = report.written) (hstart : session'.store = session.store)
    (hend : action'.outcome report' session' = action.outcome report session) :
    Performs s o action' report' session' ds where
  carried := by
    rw [hstart, hend]
    exact h.carried
  requests := h.requests
  artifacts := h.artifacts
  written := by
    rw [hend, hreport]
    exact h.written
  complete := by
    rw [hend]
    exact h.complete

theorem Performs.of_error {s : Settings} {o : Order} {action : FileRun Unit} {ds : List Deed}
    {e : Failure} (h : action.outcome report session = ((.error e, report), session'))
    (hcarried : Carried s.update session.store ds session'.store)
    (hrequests : (ds.map (·.request)).Sublist o.requests) (hwritten : pathsWritten ds = []) :
    Performs s o action report session ds where
  carried := by
    rw [h]
    exact hcarried
  requests := hrequests
  artifacts := by
    rw [hwritten]
    exact .nil
  written := by
    rw [h, hwritten]
    exact (List.append_nil _).symm
  complete := by
    rw [h]
    exact fun _ hok ↦ nomatch hok

/-- Files are written one after the other. -/
theorem performs_writeArtifacts (s : Settings) (c : Component) (namespaceName : Text)
    (files : List (ArtifactKind × Text)) (report : FileReport) (session : Session) :
    ∃ ds, Performs s { artifacts := targets s c namespaceName files }
      (writeArtifacts s c namespaceName files) report session ds := by
  induction files generalizing report session with
  | nil => exact ⟨[], .nil _, .refl _, .nil, (List.append_nil _).symm, fun _ _ ↦ rfl⟩
  | cons file files ih =>
    obtain ⟨kind, text⟩ := file
    let target := artifactPath c.snakeName namespaceName s.dest s.root kind
    have hcarries := carries_writeFile s.update target text session
    rcases hwrite : outcome (writeFile s.update target text) session with ⟨e | w, session₁⟩ <;>
      rw [hwrite] at hcarries
    · have hend : (writeArtifacts s c namespaceName ((kind, text) :: files)).outcome report session
          = ((.error e, report), session₁) := by
        refine FileRun.outcome_bind_error ?_ _
        rw [FileRun.outcome_ofRun, hwrite]
      exact ⟨[⟨.artifact target text, none⟩], .of_error hend (.cons hcarries (.nil _))
        ((List.nil_sublist _).cons_cons _) rfl⟩
    · let report₁ : FileReport := { report with written := report.written ++ [w.path.toText] }
      have hdone : (FileRun.ofRun (writeFile s.update target text)).outcome report session =
          ((.ok w, report), session₁) := by
        rw [FileRun.outcome_ofRun, hwrite]
      have hnoted : (modifyThe FileReport fun r ↦
          { r with written := r.written ++ [w.path.toText] } : FileRun Unit).outcome report
            session₁ = ((.ok (), report₁), session₁) := rfl
      have hcases : (∃ e session₂, session₂.store = session₁.store ∧
            (writeArtifacts s c namespaceName ((kind, text) :: files)).outcome report session =
              ((.error e, report₁), session₂)) ∨
          ∃ session₂, session₂.store = session₁.store ∧
            (writeArtifacts s c namespaceName ((kind, text) :: files)).outcome report session =
              (writeArtifacts s c namespaceName files).outcome report₁ session₂ := by
        rw [writeArtifacts, FileRun.outcome_bind_ok hdone, FileRun.outcome_bind_ok hnoted]
        split
        · obtain ⟨result, session₂, hstore, hlog⟩ := FileRun.log_cases .warning (marked
            w.requested.toText ++ " exists; wrote " ++ marked w.path.toText) report₁ session₁
          cases result with
          | error e => exact .inl ⟨e, session₂, hstore, FileRun.outcome_bind_error hlog _⟩
          | ok _ => exact .inr ⟨session₂, hstore, FileRun.outcome_bind_ok hlog _⟩
        · exact .inr ⟨session₁, rfl, rfl⟩
      rcases hcases with ⟨e, session₂, hstore, hend⟩ | ⟨session₂, hstore, hend⟩
      · refine ⟨[⟨.artifact target text, some w.path⟩], ?_, (List.nil_sublist _).cons_cons _,
          .cons List.mem_cons_self .nil, ?_, ?_⟩ <;> rw [hend]
        · rw [hstore]
          exact .cons hcarries (.nil _)
        · rfl
        · exact fun _ hok ↦ nomatch hok
      obtain ⟨ds, hds⟩ := ih report₁ session₂
      refine ⟨⟨.artifact target text, some w.path⟩ :: ds, ?_, hds.requests.cons_cons _, ?_, ?_, ?_⟩
      · have hcarried := hds.carried
        rw [hstore] at hcarried
        rw [hend]
        exact .cons hcarries hcarried
      · refine .cons List.mem_cons_self (hds.artifacts.imp fun _ _ hmem ↦ ?_)
        exact List.mem_cons_of_mem _ hmem
      · rw [hend, hds.written]
        simp [report₁, pathsWritten]
      · rw [hend]
        intro hwet hok
        simpa [pathsWritten, targets] using hds.complete hwet hok

theorem outcome_readSource (p : Path) (session : Session) :
    ∃ result : Except Failure Text, result.toOption = session.store.sourceAt? p ∧
      outcome (readSource p) session = (result, session) := by
  have hdisk := outcome_onDisk .notRead (Disk.read p) session
  have hread : outcome (Disk.read p) session.store =
      ((session.store.readAt p).mapError (⟨·, p⟩), session.store) := by
    change outcome (match session.store.readAt p with | .ok _ => _ | .error _ => _) _ = _
    cases session.store.readAt p <;> rfl
  rw [hread] at hdisk
  rw [readSource, Store.sourceAt?]
  cases hbytes : session.store.readAt p with
  | error cause =>
    rw [hbytes] at hdisk
    exact ⟨_, rfl, outcome_bind_error hdisk _⟩
  | ok bytes =>
    rw [hbytes] at hdisk
    rw [outcome_bind_ok hdisk]
    dsimp only
    cases decode bytes with
    | error e => exact ⟨.error (.undecodable e), rfl, rfl⟩
    | ok t => exact ⟨.ok (plainLineBreaks t), rfl, rfl⟩

theorem outcome_dumpTarget (s : Settings) (c : Component) (namespaceName : Text)
    (multiple : Bool) (session : Session) :
    (∃ e, outcome (dumpTarget s c multiple) session = (.error e, session)) ∨
      outcome (dumpTarget s c multiple) session =
        (.ok ((componentOrder s c namespaceName multiple).dump.map (·.1)), session) := by
  rw [dumpTarget, componentOrder]
  cases s.irOutput with
  | none => exact .inr rfl
  | some base =>
    dsimp only [Option.bind_some]
    cases dumpPath? base c.snakeName multiple with
    | none => exact .inl ⟨_, rfl⟩
    | some p => exact .inr rfl

/-- The warnings at the end change nothing that was written. -/
theorem Performs.withWarnings {s : Settings} {o : Order} {action : FileRun Unit} {ds : List Deed}
    (h : Performs s o action report session ds) (c : Component) :
    Performs s o (do action; if s.verbose then logWarnings c c.warnings) report session ds := by
  rcases haction : action.outcome report session with ⟨⟨e | _, report₁⟩, session₁⟩
  · exact h.of_outcome rfl rfl ((FileRun.outcome_bind_error haction _).trans haction.symm)
  have hend : (do action; if s.verbose then logWarnings c c.warnings : FileRun Unit).outcome report
      session = _ := FileRun.outcome_bind_ok haction _
  cases hverbose : s.verbose with
  | false =>
    rw [hverbose] at hend
    exact h.of_outcome rfl rfl (hend.trans haction.symm)
  | true =>
    obtain ⟨result, session₂, hstore, hlogged⟩ := logWarnings_cases c c.warnings report₁ session₁
    rw [hverbose] at hend
    have hended := hend.trans hlogged
    have hcarried := h.carried
    have hwritten := h.written
    have hcomplete := h.complete
    rw [haction] at hcarried hwritten hcomplete
    refine ⟨?_, h.requests, h.artifacts, ?_, ?_⟩ <;> rw [hended]
    · rw [hstore]
      exact hcarried
    · exact hwritten
    · exact fun hwet _ ↦ hcomplete hwet rfl

def writeFiles (s : Settings) (c : Component) (namespaceName : Text) : FileRun Unit := do
  writeArtifacts s c namespaceName (artifacts s c namespaceName)
  if s.verbose then logWarnings c c.warnings

theorem performs_writeFiles (s : Settings) (c : Component) (namespaceName : Text)
    (report : FileReport) (session : Session) :
    ∃ ds, Performs s { artifacts := targets s c namespaceName (artifacts s c namespaceName) }
      (writeFiles s c namespaceName) report session ds := by
  obtain ⟨ds, hds⟩ := performs_writeArtifacts s c namespaceName _ report session
  exact ⟨ds, hds.withWarnings c⟩

/-- A dump comes before the files of its order, and none of them is written if it fails. -/
theorem performs_dumpComponent {s : Settings} {action : FileRun Unit} {files : List (Path × Text)}
    (c : Component) (p : Path) (session : Session)
    (h : ∀ session, ∃ ds, Performs s { artifacts := files } action report session ds) :
    ∃ ds, Performs s { dump := some (p, c.toJson), artifacts := files }
      (do FileRun.ofRun (dumpComponent c p); action) report session ds := by
  have hcarries := carries_dumpComponent s.update c p session
  rcases hdumped : outcome (dumpComponent c p) session with ⟨e | _, session₁⟩ <;>
    rw [hdumped] at hcarries
  · have hfailed : (FileRun.ofRun (dumpComponent c p)).outcome report session =
        ((.error e, report), session₁) := by
      rw [FileRun.outcome_ofRun, hdumped]
    exact ⟨[⟨.dump p c.toJson, none⟩], .of_error (FileRun.outcome_bind_error hfailed _)
      (.cons hcarries (.nil _)) ((List.nil_sublist _).cons_cons _) rfl⟩
  · have hdone : (FileRun.ofRun (dumpComponent c p)).outcome report session =
        ((.ok (), report), session₁) := by
      rw [FileRun.outcome_ofRun, hdumped]
    have hend := FileRun.outcome_bind_ok hdone fun _ ↦ action
    obtain ⟨ds, hds⟩ := h session₁
    refine ⟨⟨.dump p c.toJson, none⟩ :: ds, ?_, hds.requests.cons_cons _, ?_, ?_, ?_⟩
    · rw [hend]
      exact .cons hcarries hds.carried
    · exact hds.artifacts.imp fun _ _ hmem ↦ List.mem_cons_of_mem _ hmem
    · rw [hend]
      exact hds.written
    · rw [hend]
      exact hds.complete

theorem performs_writeComponent (s : Settings) (c : Component) (namespaceName : Text)
    (multiple : Bool) (report : FileReport) (session : Session) :
    ∃ ds, Performs s (componentOrder s c namespaceName multiple)
      (writeComponent s c namespaceName multiple (artifacts s c namespaceName)) report session
        ds := by
  rcases outcome_dumpTarget s c namespaceName multiple session with ⟨e, htarget⟩ | htarget
  · have hend : (writeComponent s c namespaceName multiple (artifacts s c namespaceName)).outcome
        report session = ((.error e, report), session) := by
      refine FileRun.outcome_bind_error ?_ _
      rw [FileRun.outcome_ofRun, htarget]
    exact ⟨[], .of_error hend (.nil _) (List.nil_sublist _) rfl⟩
  have hstart : (FileRun.ofRun (dumpTarget s c multiple)).outcome report session =
      ((.ok ((componentOrder s c namespaceName multiple).dump.map (·.1)), report), session) := by
    rw [FileRun.outcome_ofRun, htarget]
  cases hdump : (componentOrder s c namespaceName multiple).dump with
  | none =>
    rw [hdump] at hstart
    have hend : (writeComponent s c namespaceName multiple (artifacts s c namespaceName)).outcome
        report session = (writeFiles s c namespaceName).outcome report session :=
      FileRun.outcome_bind_ok hstart _
    obtain ⟨ds, hds⟩ := performs_writeFiles s c namespaceName report session
    have hds' := hds.of_outcome rfl rfl hend
    exact ⟨ds, { hds' with requests := hds.requests.trans (List.sublist_append_right _ _) }⟩
  | some d =>
    obtain ⟨p, rfl⟩ : ∃ p, d = (p, c.toJson) := by
      obtain ⟨base, -, hbase⟩ := Option.bind_eq_some_iff.1 hdump
      obtain ⟨p, -, rfl⟩ := Option.map_eq_some_iff.1 hbase
      exact ⟨p, rfl⟩
    have horder : componentOrder s c namespaceName multiple =
        { dump := some (p, c.toJson),
          artifacts := targets s c namespaceName (artifacts s c namespaceName) } := by
      rw [← hdump]
      rfl
    rw [hdump] at hstart
    have hend : (writeComponent s c namespaceName multiple (artifacts s c namespaceName)).outcome
        report session = (do FileRun.ofRun (dumpComponent c p); writeFiles s c namespaceName :
          FileRun Unit).outcome report session := FileRun.outcome_bind_ok hstart _
    obtain ⟨ds, hds⟩ := performs_dumpComponent c p session
      (performs_writeFiles s c namespaceName report)
    rw [horder]
    exact ⟨ds, hds.of_outcome rfl rfl hend⟩

/-- In a dry run a component is only printed. -/
theorem performs_convertComponent (s : Settings) (c : Component) (namespaceName : Text)
    (multiple : Bool) (report : FileReport) (session : Session) :
    ∃ ds, Performs s (componentOrder s c namespaceName multiple) (do
        modifyThe FileReport fun r ↦ { r with component := some c.name, warnings := c.warnings }
        if s.dryRun then
          modifyThe Session fun session ↦
            { session with stdout := session.stdout ++ c.toJson ++ ['\n'] }
        else writeComponent s c namespaceName multiple (artifacts s c namespaceName)) report session
          ds ∧ (s.dryRun = true → ds = []) := by
  cases hdry : s.dryRun with
  | true =>
    refine ⟨[], ⟨.nil _, List.nil_sublist _, .nil, (List.append_nil _).symm, fun hwet ↦ ?_⟩,
      fun _ ↦ rfl⟩
    cases hdry.symm.trans hwet
  | false =>
    obtain ⟨ds, hds⟩ := performs_writeComponent s c namespaceName multiple
      { report with component := some c.name, warnings := c.warnings } session
    exact ⟨ds, hds.of_outcome rfl rfl rfl, fun h ↦ nomatch h⟩

theorem performs_convertFile (s : Settings) (base : Path) (multiple : Bool) (p : Path)
    (report : FileReport) (session : Session) :
    ∃ ds, Performs s (orderOf s base multiple session.store p) (convertFile s base multiple p)
      report session ds ∧ (s.dryRun = true → ds = []) := by
  obtain ⟨source, hsource, hread⟩ := outcome_readSource p session
  have hstart : (FileRun.ofRun (readSource p)).outcome report session =
      ((source, report), session) := by
    rw [FileRun.outcome_ofRun, hread]
  cases source with
  | error e =>
    exact ⟨[], .of_error (FileRun.outcome_bind_error hstart _) (.nil _) (List.nil_sublist _) rfl,
      fun _ ↦ rfl⟩
  | ok source =>
    have hnext : (convertFile s base multiple p).outcome report session = _ :=
      FileRun.outcome_bind_ok hstart _
    rw [orderOf, ← hsource]
    change ∃ ds, Performs s (match componentOf? s p.toText source with | some c => _ | none => _)
      _ _ _ _ ∧ _
    rw [componentOf?]
    cases hd : Definition.ofSource? p.toText source with
    | none =>
      rw [hd] at hnext
      exact ⟨[], .of_error hnext (.nil _) (List.nil_sublist _) rfl, fun _ ↦ rfl⟩
    | some d =>
      rw [hd] at hnext
      dsimp only [Option.map_some] at hnext ⊢
      rcases generate_cases s.detectSlots d session with ⟨m, reason, -, -, hend⟩ | ⟨-, logs, hend⟩
      · have hrefused : (FileRun.ofRun (generate s.detectSlots d)).outcome report session =
            ((.error (.unprintable reason), report), session) := by
          rw [FileRun.outcome_ofRun, hend]
        exact ⟨[], .of_error (hnext.trans (FileRun.outcome_bind_error hrefused _)) (.nil _)
          (List.nil_sublist _) rfl, fun _ ↦ rfl⟩
      · have hmade : (FileRun.ofRun (generate s.detectSlots d)).outcome report session =
            ((.ok (.ofDefinition s.detectSlots d), report), { session with logs }) := by
          rw [FileRun.outcome_ofRun, hend]
        obtain ⟨ds, hds, hdry⟩ := performs_convertComponent s (.ofDefinition s.detectSlots d)
          (namespaceFor s base p) multiple report { session with logs }
        exact ⟨ds, hds.of_outcome rfl rfl (hnext.trans (FileRun.outcome_bind_ok hmade _)), hdry⟩

end File

section Batch

/-- The deeds of a run over its orders; a dry run has none. -/
structure Accounts (s : Settings) (os : List Order) (st : Store) (ds : List Deed) (st' : Store) :
    Prop where
  carried : Carried s.update st ds st'
  requests : (ds.map (·.request)).Sublist (os.flatMap Order.requests)
  dry : s.dryRun = true → ds = []

theorem Accounts.append {s : Settings} {os os' : List Order} {st st₁ st₂ : Store}
    {ds es : List Deed} (h : Accounts s os st ds st₁) (h' : Accounts s os' st₁ es st₂) :
    Accounts s (os ++ os') st (ds ++ es) st₂ where
  carried := h.carried.append h'.carried
  requests := by
    rw [List.map_append, List.flatMap_append]
    exact h.requests.append h'.requests
  dry hdry := by rw [h.dry hdry, h'.dry hdry, List.append_nil]

/-- What a conversion comes to in a run. Its failure is part of the report only if the message about
it can be shown. -/
inductive Settled (s : Settings) (p : Path) :
    Except Failure Unit × FileReport → Session → Except Failure FileReport × Session → Prop
  | converted {report : FileReport} {session : Session} :
      Settled s p (.ok (), report) session (.ok report, session)
  | strict {failure : Failure} {report : FileReport} {session : Session} : s.strict = true →
      Settled s p (.error failure, report) session (.error failure, session)
  | unheard {failure : Failure} {reason : Text} {report : FileReport} {session : Session} :
      s.strict = false →
      session.console.refusal? .error (failureLine p.toText failure) = some reason →
      Settled s p (.error failure, report) session (.error (.unprintable reason), session)
  | reported {failure : Failure} {report : FileReport} {session : Session}
      {logs : List (Level × Text)} : s.strict = false →
      session.console.refusal? .error (failureLine p.toText failure) = none →
      Settled s p (.error failure, report) session
        (.ok { report with error := some failure.message }, { session with logs })

theorem Settled.store {s : Settings} {p : Path} {r : Except Failure Unit × FileReport}
    {session : Session} {ran : Except Failure FileReport × Session} (h : Settled s p r session ran) :
    ran.2.store = session.store := by
  cases h <;> rfl

theorem Settled.report {s : Settings} {p : Path} {r : Except Failure Unit × FileReport}
    {session session' : Session} {report : FileReport}
    (h : Settled s p r session (.ok report, session')) :
    report.written = r.2.written ∧ (report.error = none → r.1 = .ok ()) := by
  cases h with
  | converted => exact ⟨rfl, fun _ ↦ rfl⟩
  | reported => exact ⟨rfl, fun hnone ↦ nomatch hnone⟩

/-- A file is processed by converting it, unless the message before that cannot be shown. -/
theorem processFile_cases (s : Settings) (base : Path) (multiple : Bool) (p : Path)
    (session : Session) :
    (∃ reason, session.console.refusal? .debug (detailLine p.toText) = some reason ∧
        outcome (processFile s base multiple p) session = (.error (.unprintable reason), session)) ∨
      session.console.refusal? .debug (detailLine p.toText) = none ∧
        ∃ session₁, session₁.Alike session ∧
          Settled s p ((convertFile s base multiple p).outcome { path := p.toText } session₁).1
            ((convertFile s base multiple p).outcome { path := p.toText } session₁).2
            (outcome (processFile s base multiple p) session) := by
  rw [processFile]
  rcases log_cases .debug (detailLine p.toText) session with
    ⟨reason, hrefused, hlog⟩ | ⟨htaken, logs, hlog⟩
  · exact .inl ⟨reason, hrefused, outcome_bind_error hlog _⟩
  refine .inr ⟨htaken, { session with logs }, ⟨rfl, rfl⟩, ?_⟩
  rw [outcome_bind_ok hlog]
  rcases hconvert : (convertFile s base multiple p).outcome { path := p.toText }
    { session with logs } with ⟨⟨result, report⟩, session₂⟩
  have hlift : outcome ((convertFile s base multiple p).run.run { path := p.toText } :
      Run (Except Failure Unit × FileReport)) { session with logs } =
        (.ok (result, report), session₂) := by
    change (Except.ok ((convertFile s base multiple p).outcome { path := p.toText } _).1,
      ((convertFile s base multiple p).outcome { path := p.toText } _).2) = _
    rw [hconvert]
  rw [outcome_bind_ok hlift]
  cases result with
  | ok _ => exact .converted
  | error failure =>
    cases hstrict : s.strict with
    | true => exact .strict hstrict
    | false =>
      rcases log_cases .error (failureLine p.toText failure) session₂ with
        ⟨reason, hrefused, hlog⟩ | ⟨htaken, logs, hlog⟩
      · have hend := outcome_bind_error hlog fun _ ↦
          (pure { report with error := some failure.message } : Run FileReport)
        exact hend.symm ▸ .unheard hstrict hrefused
      · have hend := outcome_bind_ok hlog fun _ ↦
          (pure { report with error := some failure.message } : Run FileReport)
        exact hend.symm ▸ .reported hstrict htaken

theorem accounts_processFile (s : Settings) (base : Path) (multiple : Bool) (p : Path)
    (session : Session) :
    ∃ ds, Accounts s [orderOf s base multiple session.store p] session.store ds
        (outcome (processFile s base multiple p) session).2.store ∧
      ∀ report, (outcome (processFile s base multiple p) session).1 = .ok report →
        Reported s.dryRun (orderOf s base multiple session.store p) ds report := by
  rcases processFile_cases s base multiple p session with
    ⟨reason, -, hend⟩ | ⟨-, session₁, halike, hsettled⟩
  · rw [hend]
    exact ⟨[], ⟨.nil _, List.nil_sublist _, fun _ ↦ rfl⟩, fun _ h ↦ nomatch h⟩
  obtain ⟨ds, hds, hdry⟩ := performs_convertFile s base multiple p { path := p.toText } session₁
  rw [halike.store] at hds
  have hcarried := hds.carried
  rw [halike.store, ← hsettled.store] at hcarried
  refine ⟨ds, ⟨hcarried, ?_, hdry⟩, fun report hreport ↦ ?_⟩
  · rw [List.flatMap_singleton]
    exact hds.requests
  · rcases hrun : outcome (processFile s base multiple p) session with ⟨result, session₂⟩
    rw [hrun] at hsettled hreport
    cases hreport
    obtain ⟨hsame, hdone⟩ := hsettled.report
    have hwritten : report.written = (pathsWritten ds).map Path.toText := by
      rw [hsame, hds.written]
      rfl
    have hlength : report.written.length = (pathsWritten ds).length := by simp [hwritten]
    refine ⟨hwritten, hlength ▸ hds.artifacts, fun hwet herror ↦ ?_⟩
    rw [hlength]
    exact hds.complete hwet (hdone herror)

theorem reports_record (b : BatchResult) (r : FileReport) :
    (b.record r).reports = b.reports ++ [r] := by
  rw [BatchResult.record]
  split
  · rfl
  · split <;> rfl

theorem accounts_processFiles (s : Settings) (base : Path) (multiple : Bool)
    (result : BatchResult) (files : List Path) (session : Session) :
    ∃ ds, Accounts s (orders s base multiple session files) session.store ds
        (outcome (processFiles s base multiple result files) session).2.store ∧
      ∀ final, (outcome (processFiles s base multiple result files) session).1 = .ok final →
        ∃ reports, final.reports = result.reports ++ reports ∧
          reports.flatMap (·.written) = (pathsWritten ds).map Path.toText ∧
          List.Forall₂ (fun o report ↦ ∃ part, part ⊆ ds ∧ Reported s.dryRun o part report)
            (orders s base multiple session files) reports := by
  induction files generalizing result session with
  | nil =>
    refine ⟨[], ⟨.nil _, List.nil_sublist _, fun _ ↦ rfl⟩, fun final hfinal ↦ ?_⟩
    cases hfinal
    exact ⟨[], (List.append_nil _).symm, rfl, .nil⟩
  | cons p files ih =>
    obtain ⟨ds₁, hds₁, hreport⟩ := accounts_processFile s base multiple p session
    rw [orders, processFiles]
    rcases hrun : outcome (processFile s base multiple p) session with ⟨e | report, session₁⟩ <;>
      rw [hrun] at hds₁ hreport
    · rw [outcome_bind_error hrun]
      exact ⟨ds₁, hds₁, fun final hfinal ↦ nomatch hfinal⟩
    · rw [outcome_bind_ok hrun]
      obtain ⟨ds₂, hds₂, hreports⟩ := ih (result.record report) session₁
      refine ⟨ds₁ ++ ds₂, hds₁.append hds₂, fun final hfinal ↦ ?_⟩
      obtain ⟨reports, hfinals, hwritten, hparts⟩ := hreports final hfinal
      have hfirst := hreport report rfl
      refine ⟨report :: reports, ?_, ?_, .cons ⟨ds₁, List.subset_append_left _ _, hfirst⟩ ?_⟩
      · rw [hfinals, reports_record, List.append_assoc]
        rfl
      · rw [List.flatMap_cons, hfirst.written, hwritten]
        simp [pathsWritten]
      · refine hparts.imp fun _ _ ⟨part, hpart, h⟩ ↦ ?_
        exact ⟨part, List.Subset.trans hpart (List.subset_append_right _ _), h⟩

theorem outcome_discover (pattern : Text) (session : Session) :
    outcome (discover pattern) session =
      (if (matching session.store pattern).isEmpty then .error (.noFiles pattern)
        else .ok (matching session.store pattern), session) := by
  rw [discover, outcome_get_bind]
  cases matching session.store pattern <;> rfl

theorem outcome_runBatch_of_nil (s : Settings) {pattern : Text} {session : Session}
    (h : matching session.store pattern = []) :
    outcome (runBatch s pattern) session = (.error (.noFiles pattern), session) := by
  refine outcome_bind_error ?_ _
  rw [outcome_discover, h]
  rfl

/-- A run announces its files and processes them. -/
theorem outcome_runBatch (s : Settings) {pattern : Text} {session : Session} {p : Path}
    {files : List Path} (hfiles : matching session.store pattern = p :: files) :
    outcome (runBatch s pattern) session =
      match outcome (log .info (announcement pattern (p :: files))) session with
      | (.ok _, session) =>
        outcome (processFiles s (patternBase pattern) (1 < (p :: files).length) {} (p :: files))
          session
      | (.error e, session) => (.error e, session) := by
  have hfound : outcome (discover pattern) session = (.ok (p :: files), session) := by
    rw [outcome_discover, hfiles]
    rfl
  rw [runBatch, outcome_bind_ok hfound]
  rcases hlog : outcome (log .info (announcement pattern (p :: files))) session with ⟨_ | _, _⟩
  · exact outcome_bind_error hlog _
  · exact outcome_bind_ok hlog _

theorem accounts_runBatch (s : Settings) (pattern : Text) (session : Session) :
    ∃ ds, Accounts s (ordersOf s pattern session) session.store ds
        (outcome (runBatch s pattern) session).2.store ∧
      ∀ result, (outcome (runBatch s pattern) session).1 = .ok result →
        result.reports.flatMap (·.written) = (pathsWritten ds).map Path.toText ∧
          List.Forall₂ (fun o report ↦ ∃ part, part ⊆ ds ∧ Reported s.dryRun o part report)
            (ordersOf s pattern session) result.reports := by
  cases hfiles : matching session.store pattern with
  | nil =>
    rw [outcome_runBatch_of_nil s hfiles]
    exact ⟨[], ⟨.nil _, List.nil_sublist _, fun _ ↦ rfl⟩, fun _ h ↦ nomatch h⟩
  | cons p files =>
    have hstore := store_log .info (announcement pattern (p :: files)) session
    rw [ordersOf, hfiles, outcome_runBatch s hfiles]
    generalize outcome (log .info (announcement pattern (p :: files))) session = announced
      at hstore ⊢
    obtain ⟨e | _, session₁⟩ := announced <;> dsimp only at hstore ⊢
    · rw [hstore]
      exact ⟨[], ⟨.nil _, List.nil_sublist _, fun _ ↦ rfl⟩, fun _ h ↦ nomatch h⟩
    obtain ⟨ds, hds, hreports⟩ := accounts_processFiles s (patternBase pattern)
      (1 < (p :: files).length) {} (p :: files) session₁
    rw [hstore] at hds
    refine ⟨ds, hds, fun result hresult ↦ ?_⟩
    obtain ⟨reports, hresults, hwritten, hparts⟩ := hreports result hresult
    rw [hresults]
    exact ⟨hwritten, hparts⟩

end Batch

end ViewForge.Project
