import ViewForge.Proofs.Project.Deeds

namespace ViewForge.Project

open Text

variable {update : Bool} {st st₁ st' : Store} {r : WriteRequest} {w : Option Path} {q : Place}
  {ds : List Deed} {bytes : Bytes}

section Step

theorem Store.get?_of_isDirectory {p : Path} (h : st.isDirectory p = true) :
    st.get? (p.placeFrom st.current) = some .directory := by
  rw [Store.isDirectory, Store.entryAt?] at h
  cases hq : st.locate p with
  | error cause =>
    rw [hq] at h
    cases h
  | ok q =>
    rw [hq] at h
    rw [← st.locate_eq hq]
    split at h
    next hdir => exact hdir
    · cases h

theorem Store.directory_of_update {place backup : Place} {old new : Bytes}
    (hold : st.get? place = some (.file old)) (hbackup : st.get? backup ≠ some .directory)
    (hq : st.get? q = some .directory) :
    ((st.set backup (.file old)).set place (.file new)).get? q = some .directory := by
  refine Store.get?_set_directory _ (fun hcontra ↦ ?_) (Store.get?_set_directory _ hbackup hq)
  obtain ⟨bytes, hfile⟩ := Store.get?_set_file _ _ hold
  cases hcontra.symm.trans hfile

theorem Carries.current (h : Carries update st r w st') : st'.current = st.current := by
  induction h with
  | nothing hgrows => exact hgrows.current
  | dumped hgrows => exact hgrows.current
  | created hgrows => exact hgrows.current
  | beside _ hgrows => exact hgrows.current
  | updated _ hgrows => exact hgrows.current
  | untold _ ih => exact ih

theorem Carries.directory (h : Carries update st r w st') (hq : st.get? q = some .directory) :
    st'.get? q = some .directory := by
  induction h with
  | nothing hgrows => exact hgrows.get?_eq_some hq
  | dumped hgrows hdir => exact Store.get?_set_directory _ hdir (hgrows.get?_eq_some hq)
  | created hgrows hnone =>
    exact Store.get?_set_directory _ (by simp [hnone]) (hgrows.get?_eq_some hq)
  | beside _ hgrows _ _ hdir => exact Store.get?_set_directory _ hdir (hgrows.get?_eq_some hq)
  | updated _ hgrows hold _ _ hdir =>
    exact Store.directory_of_update hold hdir (hgrows.get?_eq_some hq)
  | untold _ ih => exact ih

/-- A file may get other bytes but stays a file. -/
theorem Carries.file (h : Carries update st r w st') (hq : st.get? q = some (.file bytes)) :
    ∃ bytes', st'.get? q = some (.file bytes') := by
  induction h with
  | nothing hgrows => exact ⟨bytes, hgrows.get?_eq_some hq⟩
  | dumped hgrows => exact Store.get?_set_file _ _ (hgrows.get?_eq_some hq)
  | created hgrows => exact Store.get?_set_file _ _ (hgrows.get?_eq_some hq)
  | beside _ hgrows => exact Store.get?_set_file _ _ (hgrows.get?_eq_some hq)
  | updated _ hgrows =>
    obtain ⟨bytes', h'⟩ := Store.get?_set_file _ _ (hgrows.get?_eq_some hq)
    exact Store.get?_set_file _ _ h'
  | untold _ ih => exact ih

/-- What the writing of an artifact can do to its place and those beside it, if no directory stands
where its backup goes. -/
theorem Carries.artifact_cases {p : Path} {text : Text} (hp : p.IsArtifact)
    (h : Carries update st (.artifact p text) w st')
    (hbak : update = true →
      st'.get? ((p.placeFrom st.current).beside ".bak") ≠ some .directory) :
    ∃ st₁, st.Grows st₁ ∧
      (w = none ∧ st' = st₁ ∨
      (w ∈ [none, some p] ∧ st₁.get? (p.placeFrom st.current) = none ∧
        st' = st₁.set (p.placeFrom st.current) (.file (encode text))) ∨
      (update = false ∧ ∃ new, w ∈ [none, some new] ∧ p.withName? (p.name ++ ".new") = some new ∧
        st₁.get? ((p.placeFrom st.current).beside ".new") ≠ some .directory ∧
        st' = st₁.set ((p.placeFrom st.current).beside ".new") (.file (encode text))) ∨
      update = true ∧ w ∈ [none, some p] ∧ ∃ old, st₁.get? (p.placeFrom st.current) = some (.file old) ∧
        st₁.get? ((p.placeFrom st.current).beside ".bak") ≠ some .directory ∧
        st' = (st₁.set ((p.placeFrom st.current).beside ".bak") (.file old)).set
          (p.placeFrom st.current) (.file (encode text))) := by
  generalize hr : WriteRequest.artifact p text = r at h
  induction h with
  | nothing hgrows => exact ⟨_, hgrows, .inl ⟨rfl, rfl⟩⟩
  | dumped => cases hr
  | created hgrows hnone =>
    cases hr
    exact ⟨_, hgrows, .inr (.inl ⟨by simp, hnone, rfl⟩)⟩
  | beside hupdate hgrows hsome hnew hdir =>
    cases hr
    rw [hp.placeFrom_withName hnew] at hdir ⊢
    exact ⟨_, hgrows, .inr (.inr (.inl ⟨hupdate, _, by simp, hnew, hdir, rfl⟩))⟩
  | @updated _ backup target old _ st₁ hupdate hgrows hold hbackup htarget hdir =>
    cases hr
    have hplace := hp.placeFrom_withName hbackup st.current
    have hfree : ¬st₁.isDirectory backup = true := by
      intro hbusy
      have hthere := Store.get?_of_isDirectory hbusy
      rw [hgrows.current, hplace] at hthere
      exact hbak hupdate (Store.directory_of_update hold hdir hthere)
    rw [if_neg hfree] at htarget
    subst htarget
    rw [hplace] at hdir ⊢
    exact ⟨st₁, hgrows, .inr (.inr (.inr ⟨hupdate, by simp, old, hold, hdir, rfl⟩))⟩
  | untold _ ih =>
    obtain ⟨st₁, hgrows, hcases⟩ := ih hbak hr
    refine ⟨st₁, hgrows, ?_⟩
    rcases hcases with ⟨hw, -⟩ | ⟨-, hnone, hst⟩ | ⟨hupdate, new, -, hnew, hdir, hst⟩ |
      ⟨hupdate, -, hrest⟩
    · cases hw
    · exact .inr (.inl ⟨List.mem_cons_self, hnone, hst⟩)
    · exact .inr (.inr (.inl ⟨hupdate, new, List.mem_cons_self, hnew, hdir, hst⟩))
    · exact .inr (.inr (.inr ⟨hupdate, List.mem_cons_self, hrest⟩))

end Step

section Run

def WriteRequest.Named : WriteRequest → Prop
  | .dump .. => True
  | .artifact p _ => p.IsArtifact

def WriteRequest.Unblocked (st : Store) : WriteRequest → Prop
  | .dump .. => True
  | .artifact p _ => st.get? ((p.placeFrom st.current).beside ".bak") ≠ some .directory

/-- The places at which a file may be replaced when a request is carried out. -/
def WriteRequest.Replaces (update : Bool) (current q : Place) : WriteRequest → Prop
  | .dump p _ => q = p.placeFrom current
  | .artifact p _ =>
    if update then q = p.placeFrom current ∨ q = (p.placeFrom current).beside ".bak"
    else q = (p.placeFrom current).beside ".new"

theorem Carries.get?_file (h : Carries update st r w st') (hr : r.Named)
    (hbak : update = true → r.Unblocked st') (hq : ¬r.Replaces update st.current q)
    (hfile : st.get? q = some (.file bytes)) : st'.get? q = some (.file bytes) := by
  have hcurrent := h.current
  cases r with
  | dump p text =>
    cases h with
    | nothing hgrows => exact hgrows.get?_eq_some hfile
    | dumped hgrows => exact (Store.get?_set_of_ne _ hq _).trans (hgrows.get?_eq_some hfile)
    | untold h => cases h
  | artifact p text =>
    have hfree : update = true →
        st'.get? ((p.placeFrom st.current).beside ".bak") ≠ some .directory := by
      intro hupdate
      rw [← hcurrent]
      exact hbak hupdate
    obtain ⟨st₁, hgrows, hcases⟩ := h.artifact_cases hr hfree
    have hfile₁ := hgrows.get?_eq_some hfile
    rcases hcases with ⟨-, rfl⟩ | ⟨-, hnone, rfl⟩ | ⟨rfl, new, -, -, -, rfl⟩ |
      ⟨rfl, -, old, -, -, rfl⟩
    · exact hfile₁
    · have hne : q ≠ p.placeFrom st.current := by
        rintro rfl
        cases hnone.symm.trans hfile₁
      rw [Store.get?_set_of_ne _ hne, hfile₁]
    · have hne : q ≠ (p.placeFrom st.current).beside ".new" := by
        simpa [WriteRequest.Replaces] using hq
      rw [Store.get?_set_of_ne _ hne, hfile₁]
    · have hne : q ≠ p.placeFrom st.current ∧ q ≠ (p.placeFrom st.current).beside ".bak" := by
        simpa [WriteRequest.Replaces] using hq
      rw [Store.get?_set_of_ne _ hne.1, Store.get?_set_of_ne _ hne.2, hfile₁]

theorem Carried.current (h : Carried update st ds st') : st'.current = st.current := by
  induction h with
  | nil => rfl
  | cons hd _ ih => exact ih.trans hd.current

theorem Carried.eq_of_nil (h : Carried update st [] st') : st' = st := by
  cases h
  rfl

theorem Carried.directory (h : Carried update st ds st') (hq : st.get? q = some .directory) :
    st'.get? q = some .directory := by
  induction h with
  | nil => exact hq
  | cons hd _ ih => exact ih (hd.directory hq)

theorem Carried.file (h : Carried update st ds st') (hq : st.get? q = some (.file bytes)) :
    ∃ bytes', st'.get? q = some (.file bytes') := by
  induction h generalizing bytes with
  | nil => exact ⟨bytes, hq⟩
  | cons hd _ ih =>
    obtain ⟨bytes', hq'⟩ := hd.file hq
    exact ih hq'

/-- What is free at the end of a run was free all along: directories stay. -/
theorem Carried.unblocked (h : Carried update st ds st') (hr : r.Unblocked st') :
    r.Unblocked st := by
  cases r with
  | dump => trivial
  | artifact p text =>
    intro hdir
    apply hr
    rw [h.current]
    exact h.directory hdir

/-- A file that no request of a run replaces keeps its bytes. -/
theorem Carried.get?_file (h : Carried update st ds st') (hds : ∀ d ∈ ds, d.request.Named)
    (hbak : update = true → ∀ d ∈ ds, d.request.Unblocked st')
    (hq : ∀ d ∈ ds, ¬d.request.Replaces update st.current q)
    (hfile : st.get? q = some (.file bytes)) : st'.get? q = some (.file bytes) := by
  induction h with
  | nil => exact hfile
  | cons hd htail ih =>
    obtain ⟨hnamed, hds⟩ := List.forall_mem_cons.1 hds
    obtain ⟨hfirst, hq⟩ := List.forall_mem_cons.1 hq
    rw [← hd.current] at hq
    have hkept := hd.get?_file hnamed
      (fun hupdate ↦ htail.unblocked (hbak hupdate _ List.mem_cons_self)) hfirst hfile
    exact ih hds (fun hupdate d hmem ↦ hbak hupdate d (List.mem_cons_of_mem _ hmem)) hq hkept

end Run

section Orders

variable {s : Settings} {os : List Order} {o : Order} {a : Path × Text}

/-- What is ordered goes where artifacts of the settings go. -/
theorem exists_artifactPath_orderOf {base : Path} {multiple : Bool} {p : Path}
    (ha : a ∈ (orderOf s base multiple st p).artifacts) :
    ∃ snakeName namespaceName kind,
      a.1 = artifactPath snakeName namespaceName s.dest s.root kind := by
  rw [orderOf] at ha
  split at ha
  next c _ =>
    obtain ⟨⟨kind, text⟩, -, rfl⟩ := List.mem_map.1 ha
    exact ⟨c.snakeName, _, kind, rfl⟩
  · cases ha

theorem exists_artifactPath_orders {base : Path} {multiple : Bool} {session : Session}
    {files : List Path} (ho : o ∈ orders s base multiple session files) (ha : a ∈ o.artifacts) :
    ∃ snakeName namespaceName kind,
      a.1 = artifactPath snakeName namespaceName s.dest s.root kind := by
  induction files generalizing session with
  | nil => cases ho
  | cons p files ih =>
    rw [orders, List.mem_cons] at ho
    rcases ho with rfl | ho
    · exact exists_artifactPath_orderOf ha
    · split at ho
      · exact ih ho
      · cases ho

theorem exists_artifactPath {pattern : Text} {session : Session}
    (ho : o ∈ ordersOf s pattern session) (ha : a ∈ o.artifacts) :
    ∃ snakeName namespaceName kind,
      a.1 = artifactPath snakeName namespaceName s.dest s.root kind := by
  rw [ordersOf] at ho
  split at ho
  · exact exists_artifactPath_orders ho ha
  · cases ho

theorem isArtifact_of_mem {pattern : Text} {session : Session}
    (ho : o ∈ ordersOf s pattern session) (ha : a ∈ o.artifacts) : a.1.IsArtifact := by
  obtain ⟨snakeName, namespaceName, kind, h⟩ := exists_artifactPath ho ha
  rw [h]
  exact isArtifact_artifactPath ..

theorem mem_requests (hr : r ∈ os.flatMap Order.requests) :
    ∃ o ∈ os, (∃ d ∈ o.dump, r = .dump d.1 d.2) ∨ ∃ a ∈ o.artifacts, r = .artifact a.1 a.2 := by
  obtain ⟨o, ho, hr⟩ := List.mem_flatMap.1 hr
  refine ⟨o, ho, ?_⟩
  rw [Order.requests, List.mem_append, List.mem_map, List.mem_map] at hr
  rcases hr with ⟨d, hd, rfl⟩ | ⟨a, ha, rfl⟩
  · exact .inl ⟨d, Option.mem_toList.1 hd, rfl⟩
  · exact .inr ⟨a, ha, rfl⟩

theorem Accounts.mem_requests {pattern : Text} {session : Session}
    (h : Accounts s (ordersOf s pattern session) st ds st') {d : Deed} (hd : d ∈ ds) :
    ∃ o ∈ ordersOf s pattern session, (∃ e ∈ o.dump, d.request = .dump e.1 e.2) ∨
      ∃ a ∈ o.artifacts, d.request = .artifact a.1 a.2 :=
  Project.mem_requests (h.requests.subset (List.mem_map_of_mem hd))

theorem Accounts.named {pattern : Text} {session : Session}
    (h : Accounts s (ordersOf s pattern session) st ds st')
    {d : Deed} (hd : d ∈ ds) : d.request.Named := by
  obtain ⟨o, ho, ⟨e, -, he⟩ | ⟨a, ha, he⟩⟩ := h.mem_requests hd
  · rw [he]
    trivial
  · rw [he]
    exact isArtifact_of_mem ho ha

end Orders

section Rivals

theorem matching_eq {pattern : Text} {files : List Path} (hfiles : selectsDirectories pattern = false)
    (hfound : (expand st (Path.ofText pattern).segments
      [{ Path.ofText pattern with segments := [] }]).filter st.isFile = files)
    (hsorted : files.Pairwise fun p q ↦ p.le q = true) : matching st pattern = files := by
  rw [matching, if_neg (by simp [hfiles])]
  dsimp only
  rw [hfound]
  exact List.mergeSort_of_pairwise hsorted

def rivalSource (word : Text) : Text :=
  "const Note = () => <p>" ++ word ++ "</p>;\nexport default Note;\n"

/-- Two sources whose components have one name, and a template of that name that is there. -/
def rivals : Store where
  current := ["work"]
  entries :=
    [(["work"], .directory), (["work", "a"], .directory), (["work", "b"], .directory),
     (["work", "a", "index.jsx"], .file (encode (rivalSource "one"))),
     (["work", "b", "index.jsx"], .file (encode (rivalSource "two"))),
     (["work", "app"], .directory), (["work", "app", "components"], .directory),
     (["work", "app", "components", "ui"], .directory),
     (["work", "app", "components", "ui", "note_component.html.erb"], .file (encode "mine"))]

def noteTemplate : Place := ["work", "app", "components", "ui", "note_component.html.erb"]

def rivalSettings : Settings where
  root := Path.ofText "."
  tests := false

theorem matching_rivals_one : matching rivals "a/index.jsx" = [Path.ofText "a/index.jsx"] :=
  matching_eq (by decide) (by decide +kernel) (by decide)

theorem matching_rivals :
    matching rivals "**/index.jsx" = [Path.ofText "a/index.jsx", Path.ofText "b/index.jsx"] :=
  matching_eq (by decide) (by decide +kernel) (by decide)

end Rivals

/-- A dry run changes nothing. A run that does not update keeps the bytes of every file, unless it is
a dump or stands beside an artifact under the name with `.new`; and a file stays a file. -/
theorem runBatch_frame (s : Settings) (pattern : Text) (session : Session) :
    let st := session.store
    let after := (outcome (runBatch s pattern) session).2.store
    (s.dryRun = true → after = st) ∧
      (s.update = false → ∀ q bytes, st.get? q = some (.file bytes) →
        (∃ bytes', after.get? q = some (.file bytes')) ∧
        (after.get? q = some (.file bytes) ∨
          ∃ o ∈ ordersOf s pattern session,
            (∃ d ∈ o.dump, q = d.1.placeFrom st.current) ∨
            ∃ a ∈ o.artifacts, q = (a.1.placeFrom st.current).beside ".new")) := by
  intro st after
  obtain ⟨ds, hds, -⟩ := accounts_runBatch s pattern session
  constructor
  · intro hdry
    have hcarried := hds.carried
    rw [hds.dry hdry] at hcarried
    exact hcarried.eq_of_nil
  · intro hupdate q bytes hfile
    refine ⟨hds.carried.file hfile, ?_⟩
    by_cases hreplaced : ∃ d ∈ ds, d.request.Replaces s.update st.current q
    · obtain ⟨d, hd, hr⟩ := hreplaced
      obtain ⟨o, ho, ⟨e, he, hrequest⟩ | ⟨a, ha, hrequest⟩⟩ := hds.mem_requests hd
      · rw [hrequest] at hr
        exact .inr ⟨o, ho, .inl ⟨e, he, hr⟩⟩
      · rw [hrequest, hupdate] at hr
        exact .inr ⟨o, ho, .inr ⟨a, ha, by simpa [WriteRequest.Replaces] using hr⟩⟩
    · refine .inl (hds.carried.get?_file (fun d ↦ hds.named) (fun h ↦ ?_) ?_ hfile)
      · cases hupdate.symm.trans h
      · exact fun d hd hr ↦ hreplaced ⟨d, hd, hr⟩

theorem runBatch_frame_rivals :
    (outcome (runBatch { rivalSettings with dryRun := true } "**/index.jsx")
      { store := rivals }).2.store = rivals ∧
    rivals.get? noteTemplate = some (.file (encode "mine")) ∧
    (outcome (runBatch rivalSettings "**/index.jsx") { store := rivals }).2.store.get? noteTemplate =
      some (.file (encode "mine")) := by
  have hthere : rivals.get? noteTemplate = some (.file (encode "mine")) := by decide
  have hdry := (runBatch_frame { rivalSettings with dryRun := true } "**/index.jsx"
    { store := rivals }).1 rfl
  have hkept := ((runBatch_frame rivalSettings "**/index.jsx" { store := rivals }).2 rfl
    noteTemplate _ hthere).2
  refine ⟨hdry, hthere, hkept.resolve_right ?_⟩
  have horders : ∀ o ∈ ordersOf rivalSettings "**/index.jsx" { store := rivals }, o.dump = none ∧
      ∀ a ∈ o.artifacts, noteTemplate ≠ (a.1.placeFrom rivals.current).beside ".new" := by
    rw [ordersOf, matching_rivals]
    decide +kernel
  rintro ⟨o, ho, ⟨d, hd, -⟩ | ⟨a, ha, hplace⟩⟩
  · rw [(horders o ho).1] at hd
    cases hd
  · exact (horders o ho).2 a ha hplace

end ViewForge.Project
