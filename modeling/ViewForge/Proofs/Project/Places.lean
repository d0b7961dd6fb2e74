import Mathlib.Data.List.Basic
import ViewForge.Project.Artifact
import ViewForge.Project.Store
import ViewForge.Proofs.Text.Splitting

namespace ViewForge.Project

open Text

def Place.along (place : Place) (segment : Text) : Place :=
  if segment == "..".toList then place.dropLast else place ++ [segment]

def Path.placeFrom (current : Place) (p : Path) : Place :=
  p.segments.foldl Place.along (if p.isAbsolute then [] else current)

def Place.beside (q : Place) (ending : Text) : Place := q.dropLast ++ [q.getLastD [] ++ ending]

section Walk

variable {st : Store} {q : Place}

theorem Store.walk_eq {start : Place} {segments : List Text} (h : st.walk start segments = .ok q) :
    q = segments.foldl Place.along start := by
  induction segments generalizing start with
  | nil =>
    cases h
    rfl
  | cons segment segments ih =>
    rw [Store.walk] at h
    split at h
    · exact ih h
    · cases h
    · cases h

theorem Store.locate_eq {p : Path} (h : st.locate p = .ok q) : q = p.placeFrom st.current :=
  st.walk_eq h

end Walk

section Beside

theorem Place.beside_concat (q : Place) (name ending : Text) :
    Place.beside (q ++ [name]) ending = q ++ [name ++ ending] := by
  simp [Place.beside]

theorem Place.beside_injective {q q' : Place} {ending : Text} (hq : q ≠ []) (hq' : q' ≠ [])
    (h : q.beside ending = q'.beside ending) : q = q' := by
  obtain ⟨r, name, rfl⟩ := q.eq_nil_or_concat'.resolve_left hq
  obtain ⟨r', name', rfl⟩ := q'.eq_nil_or_concat'.resolve_left hq'
  rw [Place.beside_concat, Place.beside_concat] at h
  obtain ⟨hr, hname⟩ := List.append_inj' h rfl
  rw [hr, List.append_cancel_right (List.singleton_inj.1 hname)]

def ArtifactKind.ending : ArtifactKind → Text
  | .component => "_component.rb"
  | .template => "_component.html.erb"
  | .controller => "_controller.js"
  | .test => "_component_test.rb"
  | .preview => "_component_preview.rb"
  | .helper => "_helper.rb"

theorem ArtifactKind.two_lt_length_ending (kind : ArtifactKind) : 2 < kind.ending.length := by
  cases kind <;> decide

theorem ArtifactKind.getLast?_ending (kind : ArtifactKind) :
    kind.ending.getLast? = some 'b' ∨ kind.ending.getLast? = some 's' := by
  cases kind <;> decide

def IsArtifactName (name : Text) : Prop := ∃ stem, ∃ kind : ArtifactKind, name = stem ++ kind.ending

def Path.IsArtifact (p : Path) : Prop :=
  ∃ init name, IsArtifactName name ∧ p.segments = init ++ [name]

theorem IsArtifactName.two_lt_length {name : Text} (h : IsArtifactName name) : 2 < name.length := by
  obtain ⟨stem, kind, rfl⟩ := h
  have hlen := kind.two_lt_length_ending
  rw [List.length_append]
  omega

theorem IsArtifactName.ne_up {name : Text} (h : IsArtifactName name) : name ≠ "..".toList := by
  rintro rfl
  exact absurd h.two_lt_length (by decide)

/-- What a backup or a file beside is called is not the name of an artifact. -/
theorem IsArtifactName.ne_append {name other ending : Text} (h : IsArtifactName name)
    (hending : ending = ".new" ∨ ending = ".bak") : name ≠ other ++ ending := by
  obtain ⟨stem, kind, rfl⟩ := h
  intro heq
  have hlast := congrArg List.getLast? heq
  rw [List.getLast?_append, List.getLast?_append] at hlast
  rcases kind.getLast?_ending with hk | hk <;> rw [hk] at hlast <;>
    rcases hending with rfl | rfl <;> exact absurd hlast (by simp [Option.or])

variable {p : Path}

theorem Path.IsArtifact.placeFrom_eq (h : p.IsArtifact) (current : Place) :
    ∃ q name, IsArtifactName name ∧ p.placeFrom current = q ++ [name] := by
  obtain ⟨init, name, hname, hp⟩ := h
  refine ⟨init.foldl Place.along (if p.isAbsolute then [] else current), name, hname, ?_⟩
  have hup : (name == "..".toList) = false := beq_eq_false_iff_ne.2 hname.ne_up
  simp only [Path.placeFrom, hp, List.foldl_append, List.foldl_cons, List.foldl_nil]
  rw [Place.along, hup, if_neg Bool.false_ne_true]

theorem Path.IsArtifact.placeFrom_ne_nil (h : p.IsArtifact) (current : Place) :
    p.placeFrom current ≠ [] := by
  obtain ⟨q, name, -, hq⟩ := h.placeFrom_eq current
  simp [hq]

theorem Path.IsArtifact.placeFrom_ne_beside {p' : Path} (h : p.IsArtifact) (h' : p'.IsArtifact)
    {ending : Text} (hending : ending = ".new" ∨ ending = ".bak") (current : Place) :
    p.placeFrom current ≠ (p'.placeFrom current).beside ending := by
  obtain ⟨q, name, hname, hq⟩ := h.placeFrom_eq current
  obtain ⟨q', name', -, hq'⟩ := h'.placeFrom_eq current
  rw [hq, hq', Place.beside_concat]
  intro heq
  exact hname.ne_append hending (List.singleton_inj.1 (List.append_inj' heq rfl).2)

theorem Path.IsArtifact.withName? (h : p.IsArtifact) (ending : Text) :
    ∃ p', p.withName? (p.name ++ ending) = some p' ∧ p'.root = p.root ∧
      p'.segments = p.segments.dropLast ++ [p.name ++ ending] := by
  obtain ⟨init, name, -, hp⟩ := h
  have hne : ¬p.segments.isEmpty = true := by simp [hp]
  refine ⟨{ p with segments := p.segments.dropLast ++ [p.name ++ ending] }, ?_, rfl, rfl⟩
  rw [Path.withName?, if_neg hne]

/-- The file beside an artifact is at the place beside it. -/
theorem Path.IsArtifact.placeFrom_withName {p' : Path} {ending : Text} (h : p.IsArtifact)
    (hp' : p.withName? (p.name ++ ending) = some p') (current : Place) :
    p'.placeFrom current = (p.placeFrom current).beside ending := by
  obtain ⟨p'', hp'', hroot, hsegments⟩ := h.withName? ending
  cases hp'.symm.trans hp''
  obtain ⟨init, name, hname, hp⟩ := h
  have hsame : p.name = name := by simp [Path.name, hp]
  have hup : (name == "..".toList) = false := beq_eq_false_iff_ne.2 hname.ne_up
  have hup' : (name ++ ending == "..".toList) = false := by
    rw [beq_eq_false_iff_ne]
    intro heq
    have hlen := congrArg List.length heq
    have hlong := hname.two_lt_length
    rw [List.length_append, show ("..".toList).length = 2 from rfl] at hlen
    omega
  rw [hp, hsame, List.dropLast_concat] at hsegments
  simp only [Path.placeFrom, hsegments, hp, Path.isAbsolute, hroot, List.foldl_append,
    List.foldl_cons, List.foldl_nil]
  rw [Place.along, Place.along, hup, hup', if_neg Bool.false_ne_true, if_neg Bool.false_ne_true,
    Place.beside_concat]
  rfl

end Beside

section ArtifactPath

def isSegment (s : Text) : Bool := !s.isEmpty && s != ['.']

theorem isSegment_iff {s : Text} : isSegment s = true ↔ s ≠ [] ∧ s ≠ ['.'] := by
  simp [isSegment]

theorem Path.ofText_segments (t : Text) :
    (Path.ofText t).segments = (splitOn '/' t).filter isSegment := rfl

theorem Path.entry_segments (p : Path) (t : Text) :
    ∃ init, (p.entry t).segments = init ++ (Path.ofText t).segments := by
  change ∃ init, (p.append _).segments = _
  rw [Path.append]
  split
  · exact ⟨[], rfl⟩
  · exact ⟨p.segments, rfl⟩

theorem isArtifact_entry (dir : Path) (stem : Text) (kind : ArtifactKind) :
    (dir.entry (stem ++ kind.ending)).IsArtifact := by
  have hslash : ∀ c ∈ kind.ending, (c == '/') = false := by
    have hall : kind.ending.all (· != '/') = true := by cases kind <;> rfl
    simpa using hall
  obtain ⟨init, last, hsplit⟩ := exists_splitBy_append stem hslash
  obtain ⟨before, hentry⟩ := dir.entry_segments (stem ++ kind.ending)
  have hname : IsArtifactName (last ++ kind.ending) := ⟨last, kind, rfl⟩
  have hkept : isSegment (last ++ kind.ending) = true := by
    rw [isSegment_iff]
    constructor <;> intro heq <;> have hlen := hname.two_lt_length <;> simp [heq] at hlen
  rw [Path.ofText_segments, splitOn, hsplit, List.filter_append, List.filter_cons_of_pos hkept,
    List.filter_nil, ← List.append_assoc] at hentry
  exact ⟨_, _, hname, hentry⟩

theorem isArtifact_artifactPath (snakeName namespaceName : Text) (dest root : Path)
    (kind : ArtifactKind) : (artifactPath snakeName namespaceName dest root kind).IsArtifact := by
  cases kind with
  | component => exact isArtifact_entry _ snakeName .component
  | template => exact isArtifact_entry _ snakeName .template
  | controller => exact isArtifact_entry _ snakeName .controller
  | test => exact isArtifact_entry _ snakeName .test
  | preview => exact isArtifact_entry _ snakeName .preview
  | helper => exact isArtifact_entry _ snakeName .helper

end ArtifactPath

section Spelling

structure Path.Normal (p : Path) : Prop where
  root : p.root = [] ∨ p.root = "/" ∨ p.root = "//"
  segments : ∀ s ∈ p.segments, s ≠ [] ∧ s ≠ "." ∧ '/' ∉ s

variable {p q : Path}

theorem normal_ofText (t : Text) : (Path.ofText t).Normal where
  root := by
    rw [Path.ofText]
    dsimp only
    split
    · exact .inl rfl
    · split
      · exact .inr (.inr rfl)
      · exact .inr (.inl rfl)
  segments s hs := by
    rw [Path.ofText_segments, List.mem_filter] at hs
    obtain ⟨hmem, hkept⟩ := hs
    rw [isSegment_iff] at hkept
    exact ⟨hkept.1, hkept.2, not_mem_of_mem_splitOn hmem⟩

theorem Path.Normal.entry (h : p.Normal) (t : Text) : (p.entry t).Normal := by
  have ht := normal_ofText t
  change (p.append _).Normal
  rw [Path.append]
  split
  · exact ht
  · exact ⟨h.root, List.forall_mem_append.2 ⟨h.segments, ht.segments⟩⟩

theorem Path.Normal.artifactPath {dest root : Path} (hdest : dest.Normal) (hroot : root.Normal)
    (snakeName namespaceName : Text) (kind : ArtifactKind) :
    (Project.artifactPath snakeName namespaceName dest root kind).Normal := by
  cases kind with
  | component => exact (hdest.entry _).entry _
  | template => exact (hdest.entry _).entry _
  | controller => exact (hroot.entry _).entry _
  | test => exact ((hroot.entry _).entry _).entry _
  | preview => exact ((hroot.entry _).entry _).entry _
  | helper => exact ((hroot.entry _).entry _).entry _

theorem Path.Normal.withName (h : p.Normal) {ending : Text} (hslash : '/' ∉ ending)
    (hlen : 2 ≤ ending.length) (hq : p.withName? (p.name ++ ending) = some q) : q.Normal := by
  rw [Path.withName?] at hq
  split at hq
  · cases hq
  next hne =>
    cases hq
    obtain ⟨init, name, hp⟩ := p.segments.eq_nil_or_concat'.resolve_left (by simpa using hne)
    have hname : p.name = name := by simp [Path.name, hp]
    have hmem := h.segments name (by simp [hp])
    refine ⟨h.root, List.forall_mem_append.2 ⟨fun s hs ↦ h.segments s (List.dropLast_subset _ hs),
      List.forall_mem_singleton.2 ⟨?_, ?_, ?_⟩⟩⟩
    · simp [hname, hmem.1]
    · intro heq
      have := congrArg List.length heq
      simp at this
      omega
    · simp [hname, hmem.2.2, hslash]

theorem filter_splitOn_slash (t : Text) :
    (splitOn '/' ('/' :: t)).filter isSegment = (splitOn '/' t).filter isSegment := by
  have hsplit : splitOn '/' ('/' :: t) = [] :: splitOn '/' t :=
    splitBy_append_cons (a := []) t (by simp) (by decide)
  rw [hsplit]
  rfl

theorem Path.Normal.filter_splitOn (h : p.Normal) :
    (splitOn '/' (join ['/'] p.segments)).filter isSegment = p.segments := by
  by_cases hnil : p.segments = []
  · rw [hnil]
    rfl
  · rw [splitOn_join (fun s hs ↦ (h.segments s hs).2.2) hnil]
    refine List.filter_eq_self.2 fun s hs ↦ ?_
    obtain ⟨hne, hdot, -⟩ := h.segments s hs
    exact isSegment_iff.2 ⟨hne, hdot⟩

theorem Path.Normal.takeWhile_join (h : p.Normal) :
    (join ['/'] p.segments).takeWhile (· == '/') = [] := by
  cases hp : p.segments with
  | nil => rfl
  | cons s segments =>
    obtain ⟨hne, -, hslash⟩ := h.segments s (by simp [hp])
    obtain ⟨c, s, rfl⟩ := List.exists_cons_of_ne_nil hne
    have hc : c ≠ '/' := by
      rintro rfl
      exact hslash List.mem_cons_self
    cases segments with
    | nil => simp [join, hc]
    | cons u us => simp [join, hc]

/-- A normal path is read back from its text. -/
theorem Path.Normal.ofText_toText (h : p.Normal) : Path.ofText p.toText = p := by
  have hfilter := h.filter_splitOn
  have hlead := h.takeWhile_join
  obtain ⟨root, segments⟩ := p
  dsimp only at hfilter hlead
  have hread (t : Text) : Path.ofText t = ⟨if (t.takeWhile (· == '/')).length = 0 then []
      else if (t.takeWhile (· == '/')).length = 2 then "//" else "/",
      (splitOn '/' t).filter isSegment⟩ := by
    simp [Path.ofText, ← Path.ofText_segments]
  rw [Path.toText]
  split
  next hempty =>
    rw [Bool.and_eq_true, List.isEmpty_iff, List.isEmpty_iff] at hempty
    obtain ⟨rfl, rfl⟩ := hempty
    rfl
  next =>
    change Path.ofText (root ++ join ['/'] segments) = _
    rw [hread]
    obtain hroot | hroot | hroot := h.root <;> dsimp only at hroot <;> subst hroot
    · simp [hfilter, hlead]
    · simp [hfilter, hlead, filter_splitOn_slash]
    · simp [hfilter, hlead, filter_splitOn_slash]

end Spelling

end ViewForge.Project
