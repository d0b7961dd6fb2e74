import ViewForge.Proofs.Project.Writes

namespace ViewForge.Project

open Text

variable {α β : Type}

/-- Sessions with one store and one console, whatever they have logged and printed. -/
structure Session.Alike (a b : Session) : Prop where
  store : a.store = b.store
  console : a.console = b.console

theorem Session.Alike.refl (a : Session) : a.Alike a := ⟨rfl, rfl⟩

/-- Actions that see nothing of a session but its store and its console, which they leave. -/
def Blind (action : StateM Session α) : Prop :=
  ∀ ⦃a b : Session⦄, a.Alike b →
    (action.run a).1 = (action.run b).1 ∧ (action.run a).2.Alike (action.run b).2 ∧
      (action.run a).2.console = a.console

namespace Blind

theorem pure (x : α) : Blind (Pure.pure x) := fun _ _ h ↦ ⟨rfl, h, rfl⟩

theorem bind {x : StateM Session α} {f : α → StateM Session β} (hx : Blind x)
    (hf : ∀ a, Blind (f a)) : Blind (x >>= f) := by
  intro a b h
  obtain ⟨hresult, halike, hconsole⟩ := hx h
  have hrun (session : Session) :
      (x >>= f).run session = (f (x.run session).1).run (x.run session).2 := rfl
  rw [hrun, hrun, hresult]
  obtain ⟨hnext, halike', hconsole'⟩ := hf _ halike
  exact ⟨hnext, halike', hconsole'.trans hconsole⟩

theorem modify {f : Session → Session} (hf : ∀ a : Session, (f a).Alike a) :
    Blind (modifyThe Session f) := fun a b h ↦
  ⟨rfl, ⟨(hf a).store.trans (h.store.trans (hf b).store.symm),
    (hf a).console.trans (h.console.trans (hf b).console.symm)⟩, (hf a).console⟩

theorem of_outcome {action : Run α}
    (h : ∀ a b : Session, a.Alike b → (outcome action a).1 = (outcome action b).1 ∧
      (outcome action a).2.Alike (outcome action b).2 ∧
      (outcome action a).2.console = a.console) : Blind action.run := fun a b halike ↦ h a b halike

theorem log (level : Level) (message : Text) : Blind (Project.log level message).run := by
  refine of_outcome fun a b h ↦ ?_
  obtain ⟨reason, ha, hena⟩ | ⟨ha, logs, hena⟩ := log_cases level message a <;>
    obtain ⟨reason', hb, henb⟩ | ⟨hb, logs', henb⟩ := log_cases level message b <;>
    rw [h.console, hb] at ha
  · cases ha
    rw [hena, henb]
    exact ⟨rfl, h, rfl⟩
  · cases ha
  · cases ha
  · rw [hena, henb]
    exact ⟨rfl, ⟨h.store, h.console⟩, rfl⟩

theorem then_ {x : Run α} {f : α → Run β} (hx : Blind x.run) (hf : ∀ a, Blind (f a).run) :
    Blind (x >>= f).run := by
  change Blind (x.run >>= ExceptT.bindCont f)
  refine hx.bind fun result ↦ ?_
  cases result with
  | ok a => exact hf a
  | error e => exact pure _

theorem onDisk (failure : FileError → Failure) (action : Disk α) :
    Blind (Project.onDisk failure action).run := by
  refine of_outcome fun a b h ↦ ?_
  have ha := outcome_onDisk failure action a
  have hb := outcome_onDisk failure action b
  rw [h.store] at ha
  rw [ha, hb]
  exact ⟨rfl, ⟨rfl, h.console⟩, rfl⟩

theorem besides (p : Path) (ending : Text) : Blind (Project.besides p ending).run := by
  rw [Project.besides]
  split
  · exact pure _
  · exact pure _

theorem prepare (update : Bool) (p : Path) : Blind (Project.prepare update p).run := by
  refine of_outcome fun a b h ↦ ?_
  have ha := outcome_prepare update p a
  have hb := outcome_prepare update p b
  rw [ha, hb, h.store]
  split
  · split
    · exact then_ (besides p _) (fun _ ↦ then_ (onDisk _ _) fun _ ↦ pure _) h
    · exact then_ (besides p _) (fun _ ↦ pure _) h
  · exact ⟨rfl, h, rfl⟩

theorem writeFile (update : Bool) (p : Path) (content : Text) :
    Blind (Project.writeFile update p content).run :=
  then_ (onDisk _ _) fun _ ↦ then_ (prepare update p) fun _ ↦ then_ (onDisk _ _) fun _ ↦
    then_ (log _ _) fun _ ↦ pure _

theorem readSource (p : Path) : Blind (Project.readSource p).run := by
  refine then_ (onDisk _ _) fun bytes ↦ ?_
  cases decode bytes <;> exact pure _

theorem generate (withSlots : Bool) (d : Definition) :
    Blind (Project.generate withSlots d).run := by
  rw [Project.generate]
  cases d.misfit? with
  | none => exact pure _
  | some m => exact then_ (log _ _) fun _ ↦ pure _

theorem dumpComponent (c : Component) (p : Path) : Blind (Project.dumpComponent c p).run :=
  then_ (onDisk _ _) fun _ ↦ log _ _

theorem dumpTarget (s : Settings) (c : Component) (multiple : Bool) :
    Blind (Project.dumpTarget s c multiple).run := by
  rw [Project.dumpTarget]
  split
  · exact pure _
  · split <;> exact pure _

end Blind

/-- Actions on behalf of a file that see nothing of the session but its store and its console. -/
def FileRun.Blind (action : FileRun α) : Prop :=
  ∀ report : FileReport, Project.Blind (action.run.run report)

namespace FileRun.Blind

theorem ofRun {action : Run α} (h : Project.Blind action.run) : Blind (FileRun.ofRun action) :=
  fun _ ↦ h.bind fun _ ↦ .pure _

theorem pure (x : α) : Blind (Pure.pure x) := fun _ ↦ .pure _

theorem modify (f : FileReport → FileReport) : Blind (modifyThe FileReport f) := fun _ ↦ .pure _

theorem bind {x : FileRun α} {f : α → FileRun β} (hx : Blind x) (hf : ∀ a, Blind (f a)) :
    Blind (x >>= f) := by
  intro report
  change Project.Blind (x.run.run report >>= fun r ↦ (ExceptT.bindCont f r.1).run r.2)
  refine (hx report).bind fun ⟨result, report⟩ ↦ ?_
  cases result with
  | ok a => exact hf a report
  | error e => exact .pure _

theorem log (level : Level) (message : Text) : Blind (FileRun.log level message) :=
  ofRun (.log level message)

theorem writeArtifacts (s : Settings) (c : Component) (namespaceName : Text)
    (files : List (ArtifactKind × Text)) :
    Blind (Project.writeArtifacts s c namespaceName files) := by
  induction files with
  | nil => exact pure _
  | cons file files ih =>
    refine bind (ofRun (.writeFile s.update _ _)) fun written ↦ bind (modify _) fun _ ↦ ?_
    split
    · exact bind (log _ _) fun _ ↦ ih
    · exact ih

theorem logWarnings (c : Component) (warnings : List Text) :
    Blind (Project.logWarnings c warnings) := by
  induction warnings with
  | nil => exact pure _
  | cons w warnings ih => exact bind (log _ _) fun _ ↦ ih

theorem writeComponent (s : Settings) (c : Component) (namespaceName : Text) (multiple : Bool)
    (files : List (ArtifactKind × Text)) :
    Blind (Project.writeComponent s c namespaceName multiple files) := by
  have hfiles : Blind (do
      Project.writeArtifacts s c namespaceName files
      if s.verbose then Project.logWarnings c c.warnings : FileRun Unit) := by
    refine bind (writeArtifacts s c namespaceName files) fun _ ↦ ?_
    split
    · exact logWarnings c c.warnings
    · exact pure _
  refine bind (ofRun (.dumpTarget s c multiple)) fun target ↦ ?_
  cases target with
  | none => exact hfiles
  | some target => exact bind (ofRun (.dumpComponent c target)) fun _ ↦ hfiles

theorem convertFile (s : Settings) (base : Path) (multiple : Bool) (p : Path) :
    Blind (Project.convertFile s base multiple p) := by
  refine bind (ofRun (.readSource p)) fun source ↦ ?_
  split
  · exact fun _ ↦ .pure _
  · refine bind (ofRun (.generate _ _)) fun c ↦ bind (modify _) fun _ ↦ ?_
    split
    · intro report
      refine .bind (.modify ?_) fun _ ↦ .pure _
      exact fun _ ↦ ⟨rfl, rfl⟩
    · exact writeComponent s _ _ multiple _

end FileRun.Blind

theorem Blind.processFile (s : Settings) (base : Path) (multiple : Bool) (p : Path) :
    Blind (Project.processFile s base multiple p).run := by
  refine then_ (log _ _) fun _ ↦ then_ (bind (FileRun.Blind.convertFile s base multiple p _)
    fun _ ↦ pure _) fun ⟨result, report⟩ ↦ ?_
  cases result with
  | ok _ => exact pure _
  | error failure =>
    dsimp only
    split
    · exact pure _
    · exact then_ (log _ _) fun _ ↦ pure _

section Tags

/-- The first end tag of a message that no tag before it opens, and where it stands. The characters
that are skipped belong to a tag that has been read. -/
def strayTag? (opened : List Text) (position skip : Nat) : Text → Option (Nat × Text)
  | [] => none
  | c :: r =>
    match skip, styleTag? (c :: r) with
    | skip + 1, _ => strayTag? opened (position + 1) skip r
    | 0, none => strayTag? opened (position + 1) 0 r
    | 0, some (slashes, tag) =>
      let skip := slashes + tag.length - 1
      if slashes % 2 == 1 then strayTag? opened (position + 1) skip r
      else
        match tag.tail.dropLast with
        | '/' :: name =>
          if opened.contains name then strayTag? (opened.erase name) (position + 1) skip r
          else some (position + slashes, tag)
        | name => strayTag? (name :: opened) (position + 1) skip r

/-- A console that reads style tags in what it shows, and wants them in pairs. -/
def tagConsole : Console where
  refusal message := (strayTag? [] 0 0 message).map fun (position, tag) ↦
    "closing tag '" ++ tag ++ "' at position " ++ ofNat position ++ " doesn't match any open tag"

def failureMessage? : Except Failure α → Option Text
  | .ok _ => none
  | .error failure => some failure.message

end Tags

end ViewForge.Project
