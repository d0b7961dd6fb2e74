import ViewForge.Project.Batch
import ViewForge.Proofs.Project.Places

namespace ViewForge.Project

open Text

section Outcome

variable {ε σ α β : Type}

def outcome (action : ExceptT ε (StateM σ) α) (s : σ) : Except ε α × σ := action.run s

variable {x : ExceptT ε (StateM σ) α} {s s' : σ}

theorem outcome_bind_ok {a : α} (h : outcome x s = (.ok a, s')) (f : α → ExceptT ε (StateM σ) β) :
    outcome (x >>= f) s = outcome (f a) s' := by
  change (match outcome x s with | (r, s') => (ExceptT.bindCont f r : StateM σ _) s') = _
  rw [h]
  rfl

theorem outcome_bind_error {e : ε} (h : outcome x s = (.error e, s'))
    (f : α → ExceptT ε (StateM σ) β) : outcome (x >>= f) s = (.error e, s') := by
  change (match outcome x s with | (r, s') => (ExceptT.bindCont f r : StateM σ _) s') = _
  rw [h]
  rfl

theorem outcome_get_bind (f : σ → ExceptT ε (StateM σ) β) :
    outcome (get >>= f) s = outcome (f s) s := rfl

theorem outcome_onDisk (failure : FileError → Failure) (action : Disk α) (session : Session) :
    outcome (onDisk failure action) session =
      ((outcome action session.store).1.mapError failure,
        { session with store := (outcome action session.store).2 }) := by
  have hrun : action.run session.store = outcome action session.store := rfl
  rw [onDisk, outcome_get_bind, hrun]
  rcases outcome action session.store with ⟨_ | _, _⟩ <;> rfl

/-- A message is refused, which ends the action, or it is taken and at most logged. -/
theorem log_cases (level : Level) (message : Text) (session : Session) :
    (∃ reason, session.console.refusal? level message = some reason ∧
        outcome (log level message) session = (.error (.unprintable reason), session)) ∨
      session.console.refusal? level message = none ∧
        ∃ logs, outcome (log level message) session = (.ok (), { session with logs }) := by
  rw [log, outcome_get_bind]
  dsimp only
  cases session.console.refusal? level message with
  | some reason => exact .inl ⟨reason, rfl, rfl⟩
  | none =>
    refine .inr ⟨rfl, ?_⟩
    dsimp only
    split
    · exact ⟨_, rfl⟩
    · exact ⟨session.logs, rfl⟩

theorem store_log (level : Level) (message : Text) (session : Session) :
    (outcome (log level message) session).2.store = session.store := by
  obtain ⟨reason, -, h⟩ | ⟨-, logs, h⟩ := log_cases level message session <;> rw [h]

/-- A component is made, unless a detail about the markup is refused. -/
theorem generate_cases (withSlots : Bool) (d : Definition) (session : Session) :
    (∃ m reason, d.misfit? = some m ∧
        session.console.refusal? .debug (misfitLine d.path m) = some reason ∧
        outcome (generate withSlots d) session = (.error (.unprintable reason), session)) ∨
      (∀ m, d.misfit? = some m →
        session.console.refusal? .debug (misfitLine d.path m) = none) ∧
        ∃ logs, outcome (generate withSlots d) session =
          (.ok (.ofDefinition withSlots d), { session with logs }) := by
  rw [generate]
  cases d.misfit? with
  | none => exact .inr ⟨nofun, session.logs, rfl⟩
  | some m =>
    rcases log_cases .debug (misfitLine d.path m) session with
      ⟨reason, hrefused, hlog⟩ | ⟨htaken, logs, hlog⟩
    · exact .inl ⟨m, reason, rfl, hrefused, outcome_bind_error hlog _⟩
    · refine .inr ⟨fun m' hm ↦ ?_, logs, outcome_bind_ok hlog _⟩
      cases hm
      exact htaken

end Outcome

section Grows

structure Store.Grows (st st' : Store) : Prop where
  current : st'.current = st.current
  get? : ∀ q, st'.get? q = st.get? q ∨ st.get? q = none ∧ st'.get? q = some .directory

namespace Store

variable {st st' st'' : Store} {p : Path} {q : Place}

theorem Grows.refl (st : Store) : st.Grows st := ⟨rfl, fun _ ↦ .inl rfl⟩

theorem Grows.trans (h : st.Grows st') (h' : st'.Grows st'') : st.Grows st'' := by
  refine ⟨h'.current.trans h.current, fun q ↦ ?_⟩
  rcases h.get? q with heq | ⟨hnone, hdir⟩
  · rcases h'.get? q with heq' | ⟨hnone', hdir'⟩
    · exact .inl (heq'.trans heq)
    · exact .inr ⟨heq.symm.trans hnone', hdir'⟩
  · rcases h'.get? q with heq' | ⟨hnone', -⟩
    · exact .inr ⟨hnone, heq'.trans hdir⟩
    · cases hdir.symm.trans hnone'

theorem Grows.get?_eq_some (h : st.Grows st') {e : Entry} (he : st.get? q = some e) :
    st'.get? q = some e := by
  rcases h.get? q with heq | ⟨hnone, -⟩
  · exact heq.trans he
  · cases he.symm.trans hnone

theorem locate_of_bind {α : Type} {f : Place → Except FileCause α} {a : α}
    (h : (st.locate p >>= f) = .ok a) :
    st.locate p = .ok (p.placeFrom st.current) ∧ f (p.placeFrom st.current) = .ok a := by
  cases hq : st.locate p with
  | error cause =>
    rw [hq] at h
    cases h
  | ok q =>
    rw [hq] at h
    rw [← st.locate_eq hq]
    exact ⟨rfl, h⟩

theorem ne_nil_of_get? (h : st.get? q ≠ some .directory) : q ≠ [] := by
  rintro rfl
  exact h rfl

theorem get?_set_directory {r : Place} (bytes : Bytes) (hr : st.get? r ≠ some .directory)
    (hq : st.get? q = some .directory) : (st.set r (.file bytes)).get? q = some .directory := by
  have hne : q ≠ r := by
    rintro rfl
    exact hr hq
  rw [st.get?_set_of_ne hne, hq]

theorem get?_set_file {bytes : Bytes} (r : Place) (other : Bytes)
    (hq : st.get? q = some (.file bytes)) :
    ∃ bytes', (st.set r (.file other)).get? q = some (.file bytes') := by
  by_cases h : q = r
  · subst h
    have hdir : st.get? q ≠ some .directory := by simp [hq]
    exact ⟨other, st.get?_set_self (ne_nil_of_get? hdir) _⟩
  · exact ⟨bytes, (st.get?_set_of_ne h _).trans hq⟩

theorem makeAt_grows (h : st.makeAt p = .ok st') : st.Grows st' := by
  obtain ⟨-, hq⟩ := locate_of_bind h
  split at hq
  · cases hq
  next hnone =>
    cases hq
    refine ⟨rfl, fun q ↦ ?_⟩
    by_cases heq : q = p.placeFrom st.current
    · subst heq
      have hdir : st.get? (p.placeFrom st.current) ≠ some .directory := by simp [hnone]
      exact .inr ⟨hnone, st.get?_set_self (ne_nil_of_get? hdir) _⟩
    · exact .inl (st.get?_set_of_ne heq _)

/-- A file is written where no directory is. -/
theorem writeAt_eq {bytes : Bytes} (h : st.writeAt p bytes = .ok st') :
    st.locate p = .ok (p.placeFrom st.current) ∧
      st.get? (p.placeFrom st.current) ≠ some .directory ∧
      st' = st.set (p.placeFrom st.current) (.file bytes) := by
  obtain ⟨hlocate, hq⟩ := locate_of_bind h
  split at hq
  · cases hq
  next hdir =>
    cases hq
    exact ⟨hlocate, hdir, rfl⟩

theorem writeAt_of_locate (bytes : Bytes) (hlocate : st.locate p = .ok q)
    (hdir : st.get? q ≠ some .directory) : st.writeAt p bytes = .ok (st.set q (.file bytes)) := by
  rw [Store.writeAt, hlocate]
  dsimp only [bind, Except.bind]
  split
  next h => exact absurd h hdir
  · rfl

theorem readAt_eq {bytes : Bytes} (h : st.readAt p = .ok bytes) :
    st.locate p = .ok (p.placeFrom st.current) ∧
      st.get? (p.placeFrom st.current) = some (.file bytes) := by
  obtain ⟨hlocate, hq⟩ := locate_of_bind h
  split at hq
  next hfile =>
    cases hq
    exact ⟨hlocate, hfile⟩
  · cases hq
  · cases hq

theorem has_eq (h : st.locate p = .ok (p.placeFrom st.current)) :
    st.has p = (st.get? (p.placeFrom st.current)).isSome := by
  rw [Store.has, Store.entryAt?, h]

theorem locate_of_has (h : st.has p = true) : st.locate p = .ok (p.placeFrom st.current) := by
  rw [Store.has, Store.entryAt?] at h
  split at h
  next hq =>
    rw [← st.locate_eq hq]
    exact hq
  · cases h

theorem walk_mono (h : ∀ q, st.get? q = some .directory → st'.get? q = some .directory)
    {start : Place} {segments : List Text} (hq : st.walk start segments = .ok q) :
    st'.walk start segments = .ok q := by
  induction segments generalizing start with
  | nil => exact hq
  | cons segment segments ih =>
    rw [Store.walk] at hq ⊢
    split at hq
    next hdir =>
      rw [h _ hdir]
      exact ih hq
    · cases hq
    · cases hq

end Store

variable {st : Store} {p : Path}

theorem outcome_change (f : Store → Except FileCause Store) :
    outcome (Disk.change p f) st =
      match f st with
      | .ok st' => (.ok (), st')
      | .error cause => (.error ⟨cause, p⟩, st) := by
  change outcome (match f st with | .ok _ => _ | .error _ => _) st = _
  cases f st <;> rfl

theorem grows_change (h : ∀ st', st.makeAt p = .ok st' → st.Grows st') :
    st.Grows (outcome (Disk.change p fun s ↦ s.makeAt p) st).2 := by
  rw [outcome_change]
  split
  next hmade => exact h _ hmade
  · exact .refl st

theorem grows_makeLast (st : Store) (p : Path) : st.Grows (outcome (Disk.makeLast p) st).2 := by
  change st.Grows (outcome (if st.isDirectory p then _ else _) st).2
  split
  · exact .refl st
  · exact grows_change fun _ ↦ Store.makeAt_grows

theorem grows_makeUpTo (st : Store) (p : Path) (n : Nat) :
    st.Grows (outcome (Disk.makeUpTo p n) st).2 := by
  induction n generalizing st p with
  | zero => exact grows_makeLast st p
  | succ n ih =>
    rw [Disk.makeUpTo, outcome_get_bind]
    split
    next hmade => exact Store.makeAt_grows hmade
    · have hgrows := ih st p.parent
      rcases hparent : outcome (Disk.makeUpTo p.parent n) st with ⟨e | _, st'⟩ <;>
        rw [hparent] at hgrows
      · rw [outcome_bind_error hparent]
        exact hgrows
      · rw [outcome_bind_ok hparent]
        exact hgrows.trans (grows_makeLast _ p)
    · exact grows_makeLast st p

end Grows

section Requests

/-- A text to be written: the dump of a component, or a file it is turned into. -/
inductive WriteRequest where
  | dump (path : Path) (text : Text)
  | artifact (path : Path) (text : Text)

/-- What carrying out a request can do: where the text of an artifact was written, if that is told,
and the store that is left. -/
inductive Carries (update : Bool) (st : Store) : WriteRequest → Option Path → Store → Prop
  | nothing {r : WriteRequest} {st₁ : Store} : st.Grows st₁ → Carries update st r none st₁
  | dumped {p : Path} {text : Text} {st₁ : Store} : st.Grows st₁ →
      st₁.get? (p.placeFrom st.current) ≠ some .directory →
      Carries update st (.dump p text) none
        (st₁.set (p.placeFrom st.current) (.file (encode text)))
  | created {p : Path} {text : Text} {st₁ : Store} : st.Grows st₁ →
      st₁.get? (p.placeFrom st.current) = none →
      Carries update st (.artifact p text) (some p)
        (st₁.set (p.placeFrom st.current) (.file (encode text)))
  | beside {p new : Path} {text : Text} {st₁ : Store} : update = false → st.Grows st₁ →
      (st₁.get? (p.placeFrom st.current)).isSome →
      p.withName? (p.name ++ ".new") = some new →
      st₁.get? (new.placeFrom st.current) ≠ some .directory →
      Carries update st (.artifact p text) (some new)
        (st₁.set (new.placeFrom st.current) (.file (encode text)))
  | updated {p backup target : Path} {old : Bytes} {text : Text} {st₁ : Store} : update = true →
      st.Grows st₁ → st₁.get? (p.placeFrom st.current) = some (.file old) →
      p.withName? (p.name ++ ".bak") = some backup →
      target = (if st₁.isDirectory backup then backup.entry p.name else backup) →
      st₁.get? (target.placeFrom st.current) ≠ some .directory →
      Carries update st (.artifact p text) (some p)
        ((st₁.set (target.placeFrom st.current) (.file old)).set (p.placeFrom st.current)
          (.file (encode text)))
  | untold {r : WriteRequest} {w : Path} {st₁ : Store} :
      Carries update st r (some w) st₁ → Carries update st r none st₁

variable {st : Store} {p : Path}

theorem outcome_write (st : Store) (p : Path) (bytes : Bytes) :
    (∃ cause, st.writeAt p bytes = .error cause ∧
        outcome (Disk.write p bytes) st = (.error ⟨cause, p⟩, st)) ∨
      st.locate p = .ok (p.placeFrom st.current) ∧
      st.get? (p.placeFrom st.current) ≠ some .directory ∧
        outcome (Disk.write p bytes) st =
          (.ok (), st.set (p.placeFrom st.current) (.file bytes)) := by
  rw [Disk.write, outcome_change]
  split
  next st' hwritten =>
    obtain ⟨hlocate, hdir, rfl⟩ := Store.writeAt_eq hwritten
    exact .inr ⟨hlocate, hdir, rfl⟩
  next cause hfailed => exact .inl ⟨cause, hfailed, rfl⟩

theorem outcome_copy (st : Store) (source target : Path) :
    outcome (Disk.copy source target) st =
      match st.readAt source with
      | .ok bytes =>
        outcome (Disk.write (if st.isDirectory target then target.entry source.name else target)
          bytes) st
      | .error cause => (.error ⟨cause, source⟩, st) := by
  change outcome ((match st.readAt source with
    | .ok bytes => pure bytes
    | .error cause => throw ⟨cause, source⟩ : Disk Bytes) >>= fun bytes ↦ Disk.write _ bytes) st = _
  cases st.readAt source <;> rfl

theorem outcome_besides (p : Path) (ending : Text) (session : Session) :
    outcome (besides p ending) session =
      match p.withName? (p.name ++ ending) with
      | some q => (.ok q, session)
      | none => (.error (.emptyName p), session) := by
  rw [besides]
  cases p.withName? (p.name ++ ending) <;> rfl

/-- A backup fails and leaves everything as it is, or the bytes are copied. -/
theorem backup_cases (p backup : Path) (session : Session) :
    (∃ e, outcome (onDisk (.notWritten p) (Disk.copy p backup)) session = (.error e, session)) ∨
      ∃ old target, target = (if session.store.isDirectory backup then backup.entry p.name
          else backup) ∧
        session.store.get? (p.placeFrom session.store.current) = some (.file old) ∧
        session.store.get? (target.placeFrom session.store.current) ≠ some .directory ∧
        outcome (onDisk (.notWritten p) (Disk.copy p backup)) session =
          (.ok (), { session with
            store := session.store.set (target.placeFrom session.store.current) (.file old) }) := by
  have hdisk := outcome_onDisk (.notWritten p) (Disk.copy p backup) session
  rw [outcome_copy] at hdisk
  cases hread : session.store.readAt p with
  | error cause =>
    rw [hread] at hdisk
    exact .inl ⟨_, hdisk⟩
  | ok old =>
    obtain ⟨-, hold⟩ := Store.readAt_eq hread
    rw [hread] at hdisk
    dsimp only at hdisk
    rcases outcome_write session.store (if session.store.isDirectory backup then
      backup.entry p.name else backup) old with ⟨cause, -, h⟩ | ⟨-, hdir, h⟩ <;> rw [h] at hdisk
    · exact .inl ⟨_, hdisk⟩
    · exact .inr ⟨old, _, rfl, hold, hdir, hdisk⟩

theorem outcome_prepare (update : Bool) (p : Path) (session : Session) :
    outcome (prepare update p) session =
      if session.store.has p then
        if update then
          outcome (do
            let backup ← besides p ".bak"
            onDisk (.notWritten p) (Disk.copy p backup)
            return ⟨p, p, .updated, some backup⟩) session
        else outcome (do return ⟨p, ← besides p ".new", .sideBySide, none⟩) session
      else (.ok ⟨p, p, .created, none⟩, session) := by
  change outcome (if !session.store.has p then _ else _) session = _
  cases session.store.has p <;> cases update <;> rfl

/-- What the decision where a text goes can come to. -/
theorem prepare_cases (update : Bool) (p : Path) (session : Session) :
    (∃ e, outcome (prepare update p) session = (.error e, session)) ∨
      session.store.has p = false ∧
        outcome (prepare update p) session = (.ok ⟨p, p, .created, none⟩, session) ∨
      (update = false ∧ session.store.has p = true ∧ ∃ new,
        p.withName? (p.name ++ ".new") = some new ∧
        outcome (prepare update p) session = (.ok ⟨p, new, .sideBySide, none⟩, session)) ∨
      update = true ∧ session.store.has p = true ∧ ∃ backup old target,
        p.withName? (p.name ++ ".bak") = some backup ∧
        target = (if session.store.isDirectory backup then backup.entry p.name else backup) ∧
        session.store.get? (p.placeFrom session.store.current) = some (.file old) ∧
        session.store.get? (target.placeFrom session.store.current) ≠ some .directory ∧
        outcome (prepare update p) session =
          (.ok ⟨p, p, .updated, some backup⟩, { session with
            store := session.store.set (target.placeFrom session.store.current) (.file old) }) := by
  rw [outcome_prepare]
  cases hhas : session.store.has p with
  | false => exact .inr (.inl ⟨rfl, rfl⟩)
  | true =>
    cases update with
    | false =>
      have hbeside := outcome_besides p ".new" session
      split at hbeside
      next new hnew => exact .inr (.inr (.inl ⟨rfl, rfl, new, hnew, outcome_bind_ok hbeside _⟩))
      · exact .inl ⟨_, outcome_bind_error hbeside _⟩
    | true =>
      have hbeside := outcome_besides p ".bak" session
      split at hbeside
      next backup hbackup =>
        have hstep := outcome_bind_ok hbeside fun backup ↦ do
          onDisk (.notWritten p) (Disk.copy p backup)
          return (⟨p, p, .updated, some backup⟩ : Written)
        rcases backup_cases p backup session with ⟨e, h⟩ | ⟨old, target, htarget, hold, hdir, h⟩
        · exact .inl ⟨e, hstep.trans (outcome_bind_error h _)⟩
        · exact .inr (.inr (.inr ⟨rfl, rfl, backup, old, target, hbackup, htarget, hold, hdir,
            hstep.trans (outcome_bind_ok h _)⟩))
      · exact .inl ⟨_, outcome_bind_error hbeside _⟩

theorem carries_dumpComponent (update : Bool) (c : Component) (p : Path) (session : Session) :
    Carries update session.store (.dump p c.toJson) none
      (outcome (dumpComponent c p) session).2.store := by
  have hgrows := grows_makeUpTo session.store p.parent p.parent.segments.length
  let action : Disk Unit := do
    Disk.makeDirectories p.parent
    Disk.write p (encode c.toJson)
  have hdisk := outcome_onDisk (.notWritten p) action session
  have hstore : (outcome (dumpComponent c p) session).2.store =
      (outcome action session.store).2 := by
    rw [dumpComponent]
    rcases haction : outcome action session.store with ⟨e | _, st⟩ <;> rw [haction] at hdisk
    · rw [outcome_bind_error hdisk]
    · rw [outcome_bind_ok hdisk]
      exact store_log ..
  rw [hstore]
  rcases hmade : outcome (Disk.makeDirectories p.parent) session.store with ⟨e | _, st₁⟩ <;>
    rw [← Disk.makeDirectories, hmade] at hgrows
  · have hend : outcome action session.store = _ := outcome_bind_error hmade _
    rw [hend]
    exact .nothing hgrows
  · have hend : outcome action session.store = _ := outcome_bind_ok hmade _
    rw [hend]
    rcases outcome_write st₁ p (encode c.toJson) with ⟨cause, -, hfailed⟩ | ⟨-, hdir, hwritten⟩
    · rw [hfailed]
      exact .nothing hgrows
    · rw [hgrows.current] at hdir hwritten
      rw [hwritten]
      exact .dumped hgrows hdir

/-- The last step of writing a file: the text goes where it was decided, or nothing changes. -/
theorem carries_finish {update : Bool} {text message : Text} {session session₁ : Session}
    {w : Written} {r : WriteRequest}
    (hfailed : ∀ cause, session₁.store.writeAt w.path (encode text) = .error cause →
      Carries update session.store r none session₁.store)
    (hwritten : session₁.store.locate w.path = .ok (w.path.placeFrom session₁.store.current) →
      session₁.store.get? (w.path.placeFrom session₁.store.current) ≠ some .directory →
      Carries update session.store r (some w.path)
        (session₁.store.set (w.path.placeFrom session₁.store.current) (.file (encode text)))) :
    let finish : Run Written := do
      onDisk (.notWritten p) (Disk.write w.path (encode text))
      log .debug message
      return w
    Carries update session.store r ((outcome finish session₁).1.toOption.map (·.path))
      (outcome finish session₁).2.store := by
  intro finish
  have hdisk := outcome_onDisk (.notWritten p) (Disk.write w.path (encode text)) session₁
  rcases outcome_write session₁.store w.path (encode text) with
    ⟨cause, hcause, h⟩ | ⟨hlocate, hdir, h⟩ <;>
    rw [h] at hdisk
  · have hend : outcome finish session₁ = _ := outcome_bind_error hdisk _
    rw [hend]
    exact hfailed cause hcause
  · have hend : outcome finish session₁ = _ := outcome_bind_ok hdisk _
    rw [hend]
    -- The text is there by now; a message about it that is refused leaves it there untold.
    obtain ⟨reason, -, h⟩ | ⟨-, logs, h⟩ := log_cases .debug message { session₁ with
      store := session₁.store.set (w.path.placeFrom session₁.store.current) (.file (encode text)) }
    · rw [outcome_bind_error h]
      exact .untold (hwritten hlocate hdir)
    · rw [outcome_bind_ok h]
      exact hwritten hlocate hdir

theorem carries_writeFile (update : Bool) (p : Path) (text : Text) (session : Session) :
    Carries update session.store (.artifact p text)
      ((outcome (writeFile update p text) session).1.toOption.map (·.path))
      (outcome (writeFile update p text) session).2.store := by
  have hgrows := grows_makeUpTo session.store p.parent p.parent.segments.length
  have hdisk := outcome_onDisk (.notWritten p) (Disk.makeDirectories p.parent) session
  rw [writeFile]
  rcases hmade : outcome (Disk.makeDirectories p.parent) session.store with ⟨e | _, st₁⟩ <;>
    rw [hmade] at hdisk <;> rw [← Disk.makeDirectories, hmade] at hgrows
  · rw [outcome_bind_error hdisk]
    exact .nothing hgrows
  rw [outcome_bind_ok hdisk]
  dsimp only at hgrows
  rcases prepare_cases update p { session with store := st₁ } with
    ⟨e, h⟩ | ⟨hhas, h⟩ | ⟨hupdate, hhas, new, hnew, h⟩ |
      ⟨hupdate, hhas, backup, old, target, hbackup, htarget, hold, hdir, h⟩
  · rw [outcome_bind_error h]
    exact .nothing hgrows
  · rw [outcome_bind_ok h]
    refine carries_finish (fun _ _ ↦ .nothing hgrows) fun hlocate _ ↦ ?_
    have hnone : st₁.get? (p.placeFrom st₁.current) = none := by
      simpa [Store.has_eq hlocate] using hhas
    rw [hgrows.current] at hnone ⊢
    exact .created hgrows hnone
  · rw [outcome_bind_ok h]
    have hsome : (st₁.get? (p.placeFrom st₁.current)).isSome := by
      rwa [← Store.has_eq (Store.locate_of_has hhas)]
    refine carries_finish (fun _ _ ↦ .nothing hgrows) fun _ hdir ↦ ?_
    dsimp only at hdir ⊢
    rw [hgrows.current] at hsome hdir ⊢
    exact .beside hupdate hgrows hsome hnew hdir
  · rw [outcome_bind_ok h]
    dsimp only at htarget hold hdir hhas
    refine carries_finish (fun cause hcause ↦ ?_) fun _ _ ↦ ?_
    · -- The path was there before the copy, and a copy puts no directory in its way.
      have hlocate := Store.walk_mono (fun _ ↦ Store.get?_set_directory old hdir)
        (Store.locate_of_has hhas)
      obtain ⟨bytes, hfile⟩ := Store.get?_set_file (target.placeFrom st₁.current) old hold
      have hnot : (st₁.set (target.placeFrom st₁.current) (.file old)).get?
          (p.placeFrom st₁.current) ≠ some .directory := by simp [hfile]
      cases hcause.symm.trans (Store.writeAt_of_locate _ hlocate hnot)
    · dsimp only
      rw [hgrows.current] at hold hdir
      have hcurrent : (st₁.set (target.placeFrom st₁.current) (.file old)).current =
          session.store.current := hgrows.current
      rw [hcurrent, hgrows.current]
      exact .updated hupdate hgrows hold hbackup htarget hdir

end Requests

end ViewForge.Project
