import Mathlib.Data.List.Nodup
import ViewForge.Proofs.Project.Preservation

namespace ViewForge.Project

open Text

variable {update : Bool} {st st' : Store} {r : WriteRequest} {w : Option Path} {q current : Place}
  {ds : List Deed} {old : Bytes} {p : Path}

section Places

def WriteRequest.place? (current : Place) : WriteRequest → Option Place
  | .artifact p _ => some (p.placeFrom current)
  | .dump .. => none

def WriteRequest.dumpPlace? (current : Place) : WriteRequest → Option Place
  | .artifact .. => none
  | .dump p _ => some (p.placeFrom current)

def artifactPlaces (s : Settings) (pattern : Text) (session : Session) : List Place :=
  ((ordersOf s pattern session).flatMap (·.artifacts)).map (·.1.placeFrom session.store.current)

def dumpPlaces (s : Settings) (pattern : Text) (session : Session) : List Place :=
  ((ordersOf s pattern session).flatMap (·.dump.toList)).map (·.1.placeFrom session.store.current)

def Deed.place? (current : Place) (d : Deed) : Option Place := d.request.place? current

theorem filterMap_requests (current : Place) (os : List Order) :
    (os.flatMap Order.requests).filterMap (WriteRequest.place? current) =
      (os.flatMap (·.artifacts)).map (·.1.placeFrom current) := by
  induction os with
  | nil => rfl
  | cons o os ih =>
    have hfirst : o.requests.filterMap (WriteRequest.place? current) =
        o.artifacts.map (·.1.placeFrom current) := by
      simp [Order.requests, List.filterMap_map, Function.comp_def, WriteRequest.place?]
    rw [List.flatMap_cons, List.filterMap_append, hfirst, ih, List.flatMap_cons, List.map_append]

variable {s : Settings} {pattern : Text} {session : Session}

theorem Accounts.places_sublist (h : Accounts s (ordersOf s pattern session) session.store ds st') :
    (ds.filterMap (Deed.place? session.store.current)).Sublist (artifactPlaces s pattern session) := by
  rw [artifactPlaces, ← filterMap_requests]
  have hsub := h.requests.filterMap (WriteRequest.place? session.store.current)
  rw [List.filterMap_map] at hsub
  exact hsub

theorem Accounts.mem_artifactPlaces
    (h : Accounts s (ordersOf s pattern session) session.store ds st') {d : Deed} (hd : d ∈ ds)
    (hq : d.place? session.store.current = some q) : q ∈ artifactPlaces s pattern session :=
  h.places_sublist.subset (List.mem_filterMap.2 ⟨d, hd, hq⟩)

theorem Accounts.mem_dumpPlaces
    (h : Accounts s (ordersOf s pattern session) session.store ds st') {d : Deed} (hd : d ∈ ds)
    (hq : d.request.dumpPlace? session.store.current = some q) :
    q ∈ dumpPlaces s pattern session := by
  obtain ⟨o, ho, ⟨e, he, hrequest⟩ | ⟨a, -, hrequest⟩⟩ := h.mem_requests hd <;> rw [hrequest] at hq
  · cases hq
    exact List.mem_map_of_mem (List.mem_flatMap.2 ⟨o, ho, Option.mem_toList.2 he⟩)
  · cases hq

/-- An artifact is replaced by artifacts and dumps that lead to its place only. -/
theorem WriteRequest.not_replaces (hr : r.Named) (hp : p.IsArtifact)
    (hne : r.place? current ≠ some (p.placeFrom current))
    (hdump : r.dumpPlace? current ≠ some (p.placeFrom current)) :
    ¬r.Replaces update current (p.placeFrom current) := by
  intro hreplaces
  cases r with
  | dump p' text => exact hdump (congrArg some (Eq.symm hreplaces))
  | artifact p' text =>
    rw [WriteRequest.Replaces] at hreplaces
    split at hreplaces
    · rcases hreplaces with heq | heq
      · exact hne (congrArg some heq.symm)
      · exact hp.placeFrom_ne_beside hr (.inr rfl) current heq
    · exact hp.placeFrom_ne_beside hr (.inl rfl) current hreplaces

/-- The file beside an artifact is replaced by artifacts that lead to the same place, and dumps. -/
theorem WriteRequest.not_replaces_beside {ending : Text} (hr : r.Named) (hp : p.IsArtifact)
    (hending : ending = if update then ".bak".toList else ".new")
    (hne : r.place? current ≠ some (p.placeFrom current))
    (hdump : r.dumpPlace? current ≠ some ((p.placeFrom current).beside ending)) :
    ¬r.Replaces update current ((p.placeFrom current).beside ending) := by
  intro hreplaces
  cases r with
  | dump p' text => exact hdump (congrArg some (Eq.symm hreplaces))
  | artifact p' text =>
    have hsame : (p.placeFrom current).beside ending ≠ (p'.placeFrom current).beside ending := by
      intro heq
      have hplace := Place.beside_injective (hp.placeFrom_ne_nil current)
        (hr.placeFrom_ne_nil current) heq
      exact hne (congrArg some hplace.symm)
    rw [WriteRequest.Replaces] at hreplaces
    cases update with
    | true =>
      subst hending
      rcases hreplaces with heq | heq
      · exact hr.placeFrom_ne_beside hp (.inr rfl) current heq.symm
      · exact hsame heq
    | false =>
      subst hending
      exact hsame hreplaces

end Places

section Written

theorem Carries.written {w : Path} (h : Carries update st r (some w) st') :
    ∃ p text, r = .artifact p text ∧
      (w = p ∨ update = false ∧ p.withName? (p.name ++ ".new") = some w) := by
  cases h with
  | created => exact ⟨w, _, rfl, .inl rfl⟩
  | beside hupdate _ _ hnew => exact ⟨_, _, rfl, .inr ⟨hupdate, hnew⟩⟩
  | updated => exact ⟨w, _, rfl, .inl rfl⟩

/-- A text is written to the path of its artifact, or beside it. -/
theorem Carried.written (h : Carried update st ds st') {d : Deed} {w : Path} (hd : d ∈ ds)
    (hw : d.written = some w) : ∃ p text, d.request = .artifact p text ∧
      (w = p ∨ update = false ∧ p.withName? (p.name ++ ".new") = some w) := by
  induction h with
  | nil => cases hd
  | cons hcarries _ ih =>
    rcases List.mem_cons.1 hd with rfl | hd
    · rw [hw] at hcarries
      exact hcarries.written
    · exact ih hd

variable {s : Settings} {pattern : Text} {session : Session}

theorem Accounts.normal (h : Accounts s (ordersOf s pattern session) session.store ds st')
    (hdest : s.dest.Normal) (hroot : s.root.Normal) {d : Deed} {w : Path} (hd : d ∈ ds)
    (hw : d.written = some w) : w.Normal := by
  obtain ⟨p, text, hrequest, hpath⟩ := h.carried.written hd hw
  have hp : p.Normal := by
    obtain ⟨o, ho, ⟨e, -, he⟩ | ⟨a, ha, he⟩⟩ := h.mem_requests hd <;>
      cases hrequest.symm.trans he
    obtain ⟨snakeName, namespaceName, kind, hp⟩ := exists_artifactPath ho ha
    rw [hp]
    exact hdest.artifactPath hroot snakeName namespaceName kind
  rcases hpath with rfl | ⟨-, hnew⟩
  · exact hp
  · exact hp.withName (by decide) (by decide) hnew

theorem exists_deed {reports : List FileReport} {report : FileReport} {t : Text}
    (h : reports.flatMap (·.written) = (pathsWritten ds).map Path.toText)
    (hreport : report ∈ reports) (ht : t ∈ report.written) :
    ∃ d ∈ ds, ∃ w, d.written = some w ∧ w.toText = t := by
  have hmem : t ∈ reports.flatMap (·.written) := List.mem_flatMap.2 ⟨report, hreport, ht⟩
  rw [h] at hmem
  obtain ⟨w, hw, rfl⟩ := List.mem_map.1 hmem
  obtain ⟨d, hd, hwritten⟩ := List.mem_filterMap.1 hw
  exact ⟨d, hd, w, hwritten, rfl⟩

end Written

section Backup

/-- The step that leads to a place: it fails, or what is there is copied beside it. -/
theorem Carries.backup {p' : Path} {text : Text} (h : Carries true st (.artifact p' text) w st')
    (hp' : p'.IsArtifact) (hfree : st'.get? ((p'.placeFrom st.current).beside ".bak") ≠
      some .directory) (hold : st.get? (p'.placeFrom st.current) = some (.file old)) :
    st'.get? ((p'.placeFrom st.current).beside ".bak") = some (.file old) ∨
      st'.get? (p'.placeFrom st.current) = some (.file old) ∧ w = none := by
  obtain ⟨st₁, hgrows, hcases⟩ := h.artifact_cases hp' fun _ ↦ hfree
  have hold₁ := hgrows.get?_eq_some hold
  rcases hcases with ⟨rfl, rfl⟩ | ⟨-, hnone, -⟩ | ⟨hupdate, -⟩ | ⟨-, -, old', hold', hdir, rfl⟩
  · exact .inr ⟨hold₁, rfl⟩
  · cases hnone.symm.trans hold₁
  · cases hupdate
  · have hne : (p'.placeFrom st.current).beside ".bak" ≠ p'.placeFrom st.current :=
      (hp'.placeFrom_ne_beside hp' (.inr rfl) st.current).symm
    rw [Store.get?_set_of_ne _ hne, Store.get?_set_self _ (Store.ne_nil_of_get? hdir)]
    cases hold'.symm.trans hold₁
    exact .inl rfl

/-- What an update replaces at a place that one artifact of it leads to is kept beside it. -/
theorem Carried.backup (h : Carried true st ds st') (hcurrent : st.current = current)
    (hp : p.IsArtifact) (hnamed : ∀ d ∈ ds, d.request.Named)
    (hfree : ∀ d ∈ ds, d.request.Unblocked st')
    (hone : (ds.filterMap (Deed.place? current)).count (p.placeFrom current) ≤ 1)
    (hdump : ∀ d ∈ ds, d.request.dumpPlace? current ≠ some (p.placeFrom current) ∧
      d.request.dumpPlace? current ≠ some ((p.placeFrom current).beside ".bak"))
    (hold : st.get? (p.placeFrom current) = some (.file old)) :
    st'.get? ((p.placeFrom current).beside ".bak") = some (.file old) ∨
      st'.get? (p.placeFrom current) = some (.file old) ∧
        ∀ d ∈ ds, d.place? current = some (p.placeFrom current) → d.written = none := by
  induction h with
  | nil => exact .inr ⟨hold, fun d hd ↦ nomatch hd⟩
  | @cons st st₁ st₂ d ds hd htail ih =>
    have hcurrent₁ : st₁.current = current := hd.current.trans hcurrent
    obtain ⟨hdn, htn⟩ := List.forall_mem_cons.1 hnamed
    obtain ⟨hdf, htf⟩ := List.forall_mem_cons.1 hfree
    obtain ⟨hdd, htd⟩ := List.forall_mem_cons.1 hdump
    have hdf₁ := htail.unblocked hdf
    by_cases hlead : d.place? current = some (p.placeFrom current)
    · -- The step of the place itself: nothing after it touches the place or the copy.
      rw [List.filterMap_cons_some hlead, List.count_cons_self] at hone
      have hothers : ∀ e ∈ ds, e.place? current ≠ some (p.placeFrom current) := by
        intro e he heq
        have hpos := List.count_pos_iff.2 (List.mem_filterMap.2 ⟨e, he, heq⟩)
        omega
      obtain ⟨request, written⟩ := d
      cases request with
      | dump => cases hlead
      | artifact p' text =>
        have hplace : p'.placeFrom st.current = p.placeFrom current := by
          rw [hcurrent]
          exact Option.some.inj hlead
        have hroom : st₁.get? ((p'.placeFrom st.current).beside ".bak") ≠ some .directory := by
          rw [← hd.current]
          exact hdf₁
        have hstep := hd.backup hdn hroom (hplace ▸ hold)
        rw [hplace] at hstep
        rcases hstep with hkept | ⟨hkept, hfailed⟩
        · refine .inl (htail.get?_file htn (fun _ ↦ htf) (fun e he ↦ ?_) hkept)
          rw [hcurrent₁]
          exact WriteRequest.not_replaces_beside (htn e he) hp rfl (hothers e he) (htd e he).2
        · refine .inr ⟨htail.get?_file htn (fun _ ↦ htf) (fun e he ↦ ?_) hkept, ?_⟩
          · rw [hcurrent₁]
            exact WriteRequest.not_replaces (htn e he) hp (hothers e he) (htd e he).1
          · rintro e he heq
            rcases List.mem_cons.1 he with rfl | he
            · exact hfailed
            · exact absurd heq (hothers e he)
    · have hkept := hd.get?_file hdn (fun _ ↦ hdf₁) (q := p.placeFrom current) (by
        rw [hcurrent]
        exact WriteRequest.not_replaces hdn hp hlead hdd.1) hold
      have hone' := ((List.sublist_cons_self d ds).filterMap (Deed.place? current)).count_le
        (p.placeFrom current)
      rcases ih hcurrent₁ htn htf (Nat.le_trans hone' hone) htd hkept with hbak | ⟨hfile, hnone⟩
      · exact .inl hbak
      · refine .inr ⟨hfile, List.forall_mem_cons.2 ⟨fun heq ↦ absurd heq hlead, hnone⟩⟩

variable {s : Settings} {pattern : Text} {session : Session}

theorem Accounts.unblocked (h : Accounts s (ordersOf s pattern session) session.store ds st')
    (hfree : ∀ p ∈ artifactPlaces s pattern session, st'.get? (p.beside ".bak") ≠ some .directory)
    {d : Deed} (hd : d ∈ ds) : d.request.Unblocked st' := by
  obtain ⟨request, written⟩ := d
  cases request with
  | dump => trivial
  | artifact p text =>
    change st'.get? ((p.placeFrom st'.current).beside ".bak") ≠ some .directory
    rw [h.carried.current]
    exact hfree _ (h.mem_artifactPlaces hd rfl)

theorem exists_of_mem_artifactPlaces (hq : q ∈ artifactPlaces s pattern session) :
    ∃ p : Path, p.IsArtifact ∧ p.placeFrom session.store.current = q := by
  obtain ⟨a, ha, rfl⟩ := List.mem_map.1 hq
  obtain ⟨o, ho, ha⟩ := List.mem_flatMap.1 ha
  exact ⟨a.1, isArtifact_of_mem ho ha, rfl⟩

/-- An update keeps the work that it replaces: what was at a place that one artifact of the run
leads to is in the backup if the place was written to, and still there if not. -/
theorem runBatch_backup (s : Settings) (pattern : Text) (session : Session) (q : Place)
    (old : Bytes) (hdest : s.dest.Normal) (hroot : s.root.Normal) (hupdate : s.update = true)
    (hold : session.store.get? q = some (.file old))
    (hone : (artifactPlaces s pattern session).count q = 1)
    (hdump : ∀ d ∈ dumpPlaces s pattern session, d ≠ q ∧ d ≠ q.beside ".bak")
    (hfree : ∀ p ∈ artifactPlaces s pattern session,
      (outcome (runBatch s pattern) session).2.store.get? (p.beside ".bak") ≠ some .directory) :
    let after := (outcome (runBatch s pattern) session).2.store
    (after.get? q ≠ some (.file old) → after.get? (q.beside ".bak") = some (.file old)) ∧
      ∀ result, (outcome (runBatch s pattern) session).1 = .ok result →
        ∀ report ∈ result.reports, ∀ t ∈ report.written,
          (Path.ofText t).placeFrom session.store.current = q →
            after.get? (q.beside ".bak") = some (.file old) := by
  intro after
  obtain ⟨ds, hds, hreports⟩ := accounts_runBatch s pattern session
  obtain ⟨p, hp, rfl⟩ := exists_of_mem_artifactPlaces (List.count_pos_iff.1 (hone ▸ Nat.one_pos))
  have hcount := Nat.le_trans (hds.places_sublist.count_le (p.placeFrom session.store.current))
    (Nat.le_of_eq hone)
  have hcarried := hds.carried
  rw [hupdate] at hcarried
  have hkept := hcarried.backup rfl hp (fun d ↦ hds.named) (fun d ↦ hds.unblocked hfree) hcount
    (fun d hd ↦ ⟨fun heq ↦ (hdump _ (hds.mem_dumpPlaces hd heq)).1 rfl,
      fun heq ↦ (hdump _ (hds.mem_dumpPlaces hd heq)).2 rfl⟩) hold
  rcases hkept with hbak | ⟨hfile, hnone⟩
  · exact ⟨fun _ ↦ hbak, fun _ _ _ _ _ _ _ ↦ hbak⟩
  · refine ⟨fun hne ↦ absurd hfile hne, fun result hresult report hreport t ht hplace ↦ ?_⟩
    obtain ⟨d, hd, w, hw, rfl⟩ := exists_deed (hreports result hresult).1 hreport ht
    rw [(hds.normal hdest hroot hd hw).ofText_toText] at hplace
    obtain ⟨p', text, hrequest, rfl | ⟨hnot, -⟩⟩ := hds.carried.written hd hw
    · have hlead : d.place? session.store.current = some (p.placeFrom session.store.current) := by
        rw [Deed.place?, hrequest, ← hplace]
        rfl
      cases hw.symm.trans (hnone d hd hlead)
    · cases hupdate.symm.trans hnot

theorem runBatch_backup_rivals :
    let updating : Settings := { rivalSettings with update := true }
    let after := (outcome (runBatch updating "a/index.jsx") { store := rivals }).2.store
    rivals.get? noteTemplate = some (.file (encode "mine")) ∧
      after.get? noteTemplate ≠ some (.file (encode "mine")) ∧
      after.get? (noteTemplate.beside ".bak") = some (.file (encode "mine")) := by
  intro updating after
  have hthere : rivals.get? noteTemplate = some (.file (encode "mine")) := by decide
  have hafter : after = _ := congrArg (·.2.store) (outcome_runBatch updating matching_rivals_one)
  have hrun : (artifactPlaces updating "a/index.jsx" { store := rivals }).count noteTemplate = 1 ∧
      (∀ d ∈ dumpPlaces updating "a/index.jsx" { store := rivals },
        d ≠ noteTemplate ∧ d ≠ noteTemplate.beside ".bak") ∧
      (∀ p ∈ artifactPlaces updating "a/index.jsx" { store := rivals },
        after.get? (p.beside ".bak") ≠ some .directory) ∧
      after.get? noteTemplate ≠ some (.file (encode "mine")) := by
    rw [hafter, artifactPlaces, dumpPlaces, ordersOf, matching_rivals_one]
    decide +kernel
  obtain ⟨hone, hdump, hfree, hchanged⟩ := hrun
  have hkept := runBatch_backup updating "a/index.jsx" { store := rivals } noteTemplate
    (encode "mine") (normal_ofText _) (normal_ofText _) rfl hthere hone hdump hfree
  exact ⟨hthere, hchanged, hkept.1 hchanged⟩

/-- Two files of one run lead to one place, and the second backup takes the place of the first. -/
theorem not_backup_rivals :
    let after := (outcome (runBatch { rivalSettings with update := true } "**/index.jsx")
      { store := rivals }).2.store
    rivals.get? noteTemplate = some (.file (encode "mine")) ∧
      after.get? noteTemplate = some (.file (encode "<p>two</p>\n")) ∧
      after.get? (noteTemplate.beside ".bak") = some (.file (encode "<p>one</p>\n")) := by
  intro after
  have hafter : after = _ := congrArg (·.2.store)
    (outcome_runBatch { rivalSettings with update := true } matching_rivals)
  rw [hafter]
  decide +kernel

end Backup

section Distinct

theorem exists_of_toOption_map {ε α β : Type} {x : Except ε α} {f : α → β} {b : β}
    (h : x.toOption.map f = some b) : ∃ a, x = .ok a ∧ f a = b := by
  cases x with
  | error e => cases h
  | ok a => exact ⟨a, rfl, Option.some.inj h⟩

/-- The step that writes a text leaves it at the path it names. -/
theorem Carries.get?_written {p w : Path} {text : Text}
    (h : Carries update st (.artifact p text) (some w) st') (hp : p.IsArtifact)
    (hfree : update = true → st'.get? ((p.placeFrom st.current).beside ".bak") ≠ some .directory) :
    st'.get? (w.placeFrom st.current) = some (.file (encode text)) := by
  have hne := hp.placeFrom_ne_nil st.current
  obtain ⟨st₁, -, hcases⟩ := h.artifact_cases hp hfree
  rcases hcases with
    ⟨hw, -⟩ | ⟨hw, -, rfl⟩ | ⟨-, new, hw, hnew, hdir, rfl⟩ | ⟨-, hw, old, -, -, rfl⟩
  · cases hw
  · obtain rfl : w = p := by simpa using hw
    exact Store.get?_set_self _ hne _
  · obtain rfl : w = new := by simpa using hw
    rw [hp.placeFrom_withName hnew]
    exact Store.get?_set_self _ (Store.ne_nil_of_get? hdir) _
  · obtain rfl : w = p := by simpa using hw
    exact Store.get?_set_self _ hne _

/-- Where a text was written is not touched by requests that lead elsewhere. -/
theorem not_replaces_written {w : Path} (hr : r.Named) (hp : p.IsArtifact)
    (hpath : w = p ∨ update = false ∧ p.withName? (p.name ++ ".new") = some w)
    (hne : r.place? current ≠ some (p.placeFrom current))
    (hdump : r.dumpPlace? current ≠ some (p.placeFrom current) ∧
      r.dumpPlace? current ≠ some ((p.placeFrom current).beside ".new")) :
    ¬r.Replaces update current (w.placeFrom current) := by
  rcases hpath with rfl | ⟨rfl, hnew⟩
  · exact WriteRequest.not_replaces hr hp hne hdump.1
  · rw [hp.placeFrom_withName hnew]
    exact WriteRequest.not_replaces_beside hr hp rfl hne hdump.2

theorem nodup_places_cons {text : Text} :
    ((⟨.artifact p text, w⟩ :: ds).filterMap (Deed.place? current)).Nodup ↔
      p.placeFrom current ∉ ds.filterMap (Deed.place? current) ∧
        (ds.filterMap (Deed.place? current)).Nodup := by
  have hplace : Deed.place? current ⟨.artifact p text, w⟩ = some (p.placeFrom current) := rfl
  rw [List.filterMap_cons_some hplace, List.nodup_cons]

/-- If no two artifacts of a run lead to one place, each text that was written is there at the
end. -/
theorem Carried.get?_written (h : Carried update st ds st') (hcurrent : st.current = current)
    (hnamed : ∀ d ∈ ds, d.request.Named) (hfree : update = true → ∀ d ∈ ds, d.request.Unblocked st')
    (hplaces : (ds.filterMap (Deed.place? current)).Nodup)
    (hdump : ∀ d ∈ ds, ∀ e ∈ ds, ∀ q, e.place? current = some q →
      d.request.dumpPlace? current ≠ some q ∧ d.request.dumpPlace? current ≠ some (q.beside ".new"))
    {p w : Path} {text : Text} (hmem : ⟨.artifact p text, some w⟩ ∈ ds) :
    st'.get? (w.placeFrom current) = some (.file (encode text)) := by
  induction h with
  | nil => cases hmem
  | @cons st st₁ st₂ d ds hd htail ih =>
    have hcurrent₁ : st₁.current = current := hd.current.trans hcurrent
    obtain ⟨hdn, htn⟩ := List.forall_mem_cons.1 hnamed
    have htf : update = true → ∀ e ∈ ds, e.request.Unblocked st₂ :=
      fun hupdate e he ↦ hfree hupdate e (List.mem_cons_of_mem _ he)
    rcases List.mem_cons.1 hmem with rfl | hmem
    · rw [nodup_places_cons] at hplaces
      have hpath : w = p ∨ update = false ∧ p.withName? (p.name ++ ".new") = some w := by
        obtain ⟨_, _, hrequest, hpath⟩ := Carries.written hd
        cases hrequest
        exact hpath
      have hthere := Carries.get?_written hd hdn fun hupdate ↦ by
        rw [← hd.current]
        exact htail.unblocked (hfree hupdate _ List.mem_cons_self)
      rw [hcurrent] at hthere
      refine htail.get?_file htn htf (fun e he ↦ ?_) hthere
      rw [hcurrent₁]
      refine not_replaces_written (htn e he) hdn hpath (fun heq ↦ ?_)
        (hdump e (List.mem_cons_of_mem _ he) _ List.mem_cons_self _ rfl)
      exact hplaces.1 (List.mem_filterMap.2 ⟨e, he, heq⟩)
    · have hsub := (List.sublist_cons_self d ds).filterMap (Deed.place? current)
      exact ih hcurrent₁ htn htf (hplaces.sublist hsub)
        (fun d hd e he ↦ hdump d (List.mem_cons_of_mem _ hd) e (List.mem_cons_of_mem _ he)) hmem

/-- Texts written to one place belong to artifacts that lead to one place. -/
theorem placeFrom_eq_of_written {p' w w' : Path} (hp : p.IsArtifact) (hp' : p'.IsArtifact)
    (hpath : w = p ∨ update = false ∧ p.withName? (p.name ++ ".new") = some w)
    (hpath' : w' = p' ∨ update = false ∧ p'.withName? (p'.name ++ ".new") = some w')
    (h : w.placeFrom current = w'.placeFrom current) :
    p.placeFrom current = p'.placeFrom current := by
  rcases hpath with rfl | ⟨-, hnew⟩ <;> rcases hpath' with rfl | ⟨-, hnew'⟩
  · exact h
  · rw [hp'.placeFrom_withName hnew'] at h
    exact absurd h (hp.placeFrom_ne_beside hp' (.inl rfl) current)
  · rw [hp.placeFrom_withName hnew] at h
    exact absurd h.symm (hp'.placeFrom_ne_beside hp (.inl rfl) current)
  · rw [hp.placeFrom_withName hnew, hp'.placeFrom_withName hnew'] at h
    exact Place.beside_injective (hp.placeFrom_ne_nil current) (hp'.placeFrom_ne_nil current) h

theorem Carried.nodup_written (h : Carried update st ds st') (hnamed : ∀ d ∈ ds, d.request.Named)
    (hplaces : (ds.filterMap (Deed.place? current)).Nodup) :
    ((pathsWritten ds).map (Path.placeFrom current)).Nodup := by
  induction h with
  | nil => exact List.nodup_nil
  | @cons st st₁ st₂ d ds hd htail ih =>
    obtain ⟨hdn, htn⟩ := List.forall_mem_cons.1 hnamed
    have hsub := (List.sublist_cons_self d ds).filterMap (Deed.place? current)
    have htail_nodup := ih htn (hplaces.sublist hsub)
    obtain ⟨request, written⟩ := d
    cases written with
    | none => exact htail_nodup
    | some w =>
      obtain ⟨p, text, hrequest, hpath⟩ := Carries.written hd
      change request = _ at hrequest
      subst hrequest
      rw [nodup_places_cons] at hplaces
      refine List.nodup_cons.2 ⟨fun hmem ↦ ?_, htail_nodup⟩
      obtain ⟨w', hw', heq⟩ := List.mem_map.1 hmem
      obtain ⟨e, he, hwritten⟩ := List.mem_filterMap.1 hw'
      obtain ⟨p', text', hrequest', hpath'⟩ := htail.written he hwritten
      have hen := htn e he
      rw [hrequest'] at hen
      have hsame := placeFrom_eq_of_written hdn hen hpath hpath' heq.symm
      refine hplaces.1 (List.mem_filterMap.2 ⟨e, he, ?_⟩)
      rw [Deed.place?, hrequest', hsame]
      rfl

/-- If no two artifacts of a run lead to one place, and no dump to that of an artifact or beside it,
then no path is reported twice, and everything reported is there at the end: for a file without an
error, the text of each of its artifacts. -/
theorem runBatch_written (s : Settings) (pattern : Text) (session : Session) (result : BatchResult)
    (hdest : s.dest.Normal) (hroot : s.root.Normal)
    (hresult : (outcome (runBatch s pattern) session).1 = .ok result)
    (hplaces : (artifactPlaces s pattern session).Nodup)
    (hdump : ∀ d ∈ dumpPlaces s pattern session,
      ∀ p ∈ artifactPlaces s pattern session, d ≠ p ∧ d ≠ p.beside ".new")
    (hfree : s.update = true → ∀ p ∈ artifactPlaces s pattern session,
      (outcome (runBatch s pattern) session).2.store.get? (p.beside ".bak") ≠ some .directory) :
    let after := (outcome (runBatch s pattern) session).2.store
    (result.reports.flatMap (·.written)).Nodup ∧
      List.Forall₂ (fun o report ↦
        List.Forall₂ (fun a t ↦ after.get? ((Path.ofText t).placeFrom session.store.current) =
            some (.file (encode a.2)))
          (o.artifacts.take report.written.length) report.written ∧
        (s.dryRun = false → report.error = none → report.written.length = o.artifacts.length))
      (ordersOf s pattern session) result.reports := by
  intro after
  obtain ⟨ds, hds, hreports⟩ := accounts_runBatch s pattern session
  obtain ⟨hwritten, hparts⟩ := hreports result hresult
  have hnodup := hplaces.sublist hds.places_sublist
  have hread {w : Path} (hw : w ∈ pathsWritten ds) : Path.ofText w.toText = w := by
    obtain ⟨d, hd, hw⟩ := List.mem_filterMap.1 hw
    exact (hds.normal hdest hroot hd hw).ofText_toText
  constructor
  · have hsame : ((pathsWritten ds).map Path.toText).map
        (fun t ↦ (Path.ofText t).placeFrom session.store.current) =
          (pathsWritten ds).map (Path.placeFrom session.store.current) := by
      rw [List.map_map]
      refine List.map_congr_left fun w hw ↦ ?_
      rw [Function.comp_apply, hread hw]
    rw [hwritten]
    apply List.Nodup.of_map
    rw [hsame]
    exact hds.carried.nodup_written (fun d ↦ hds.named) hnodup
  · refine hparts.imp fun o report ⟨part, hpart, hreported⟩ ↦ ⟨?_, hreported.complete⟩
    have hartifacts := hreported.artifacts
    generalize report.written.length = n at hartifacts ⊢
    rw [hreported.written, List.forall₂_map_right_iff]
    refine hartifacts.imp fun a w hmem ↦ ?_
    have hmem := hpart hmem
    rw [hread (List.mem_filterMap.2 ⟨_, hmem, rfl⟩)]
    refine hds.carried.get?_written rfl (fun d ↦ hds.named)
      (fun hupdate d ↦ hds.unblocked (hfree hupdate)) hnodup (fun d hd e he q hq ↦ ?_) hmem
    have hplace := hds.mem_artifactPlaces he hq
    exact ⟨fun heq ↦ (hdump _ (hds.mem_dumpPlaces hd heq) q hplace).1 rfl,
      fun heq ↦ (hdump _ (hds.mem_dumpPlaces hd heq) q hplace).2 rfl⟩

theorem runBatch_written_rivals : ∃ result,
    let ran := outcome (runBatch rivalSettings "a/index.jsx") { store := rivals }
    ran.1 = .ok result ∧
      result.reports.map (·.written) = [["app/components/ui/note_component.rb".toList,
        "app/components/ui/note_component.html.erb.new"]] ∧
      (result.reports.flatMap (·.written)).Nodup ∧
      List.Forall₂ (fun o report ↦
        List.Forall₂ (fun a t ↦ ran.2.store.get? ((Path.ofText t).placeFrom rivals.current) =
            some (.file (encode a.2)))
          (o.artifacts.take report.written.length) report.written ∧
        (rivalSettings.dryRun = false → report.error = none → report.written.length = o.artifacts.length))
      (ordersOf rivalSettings "a/index.jsx" { store := rivals }) result.reports := by
  have hplaces : (artifactPlaces rivalSettings "a/index.jsx" { store := rivals }).Nodup ∧
      ∀ d ∈ dumpPlaces rivalSettings "a/index.jsx" { store := rivals },
        ∀ p ∈ artifactPlaces rivalSettings "a/index.jsx" { store := rivals }, d ≠ p ∧ d ≠ p.beside ".new" := by
    rw [artifactPlaces, dumpPlaces, ordersOf, matching_rivals_one]
    decide +kernel
  have hran : ((outcome (runBatch rivalSettings "a/index.jsx") { store := rivals }).1.toOption.map
      fun result ↦ result.reports.map (·.written)) =
        some [["app/components/ui/note_component.rb".toList,
          "app/components/ui/note_component.html.erb.new"]] := by
    rw [outcome_runBatch rivalSettings matching_rivals_one]
    decide +kernel
  obtain ⟨result, hresult, hwritten⟩ := exists_of_toOption_map hran
  exact ⟨result, hresult, hwritten, runBatch_written rivalSettings "a/index.jsx" { store := rivals }
    result (normal_ofText _) (normal_ofText _) hresult hplaces.1 hplaces.2 (by decide)⟩

/-- Two files of one run have a component of one name: both are reported at one path, and what the
first wrote there is gone. -/
theorem not_nodup_written_rivals : ∃ result,
    let ran := outcome (runBatch rivalSettings "**/index.jsx") { store := rivals }
    ran.1 = .ok result ∧ result.errorCount = 0 ∧
      ¬(result.reports.flatMap (·.written)).Nodup ∧
      ran.2.store.get? (noteTemplate.beside ".new") = some (.file (encode "<p>two</p>\n")) := by
  have hran : ((outcome (runBatch rivalSettings "**/index.jsx") { store := rivals }).1.toOption.map
      fun result ↦ (result.errorCount, decide (result.reports.flatMap (·.written)).Nodup)) =
        some (0, false) ∧
      (outcome (runBatch rivalSettings "**/index.jsx") { store := rivals }).2.store.get?
        (noteTemplate.beside ".new") = some (.file (encode "<p>two</p>\n")) := by
    rw [outcome_runBatch rivalSettings matching_rivals]
    decide +kernel
  obtain ⟨result, hresult, hcounts⟩ := exists_of_toOption_map hran.1
  obtain ⟨herrors, hnodup⟩ := Prod.mk.inj hcounts
  exact ⟨result, hresult, herrors, of_decide_eq_false hnodup, hran.2⟩

end Distinct

end ViewForge.Project
