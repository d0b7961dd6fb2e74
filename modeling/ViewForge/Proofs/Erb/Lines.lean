import ViewForge.Erb.Format
import ViewForge.Proofs.Text.Respacing
import ViewForge.Proofs.Text.Splitting

namespace ViewForge.Erb

open Text

section Stretches

variable {p : Char → Bool} {r w : Text} (hp : ∀ c, p c = true → isBlank c = true)
  (hr : SolidHead r)

include hp hr

theorem takeWhile_of_solidHead : r.takeWhile p = [] := by
  cases r with
  | nil => rfl
  | cons c r =>
    refine List.takeWhile_cons_of_neg fun hc ↦ ?_
    have hblank := hp c hc
    rw [hr c rfl] at hblank
    cases hblank

theorem takeWhile_append_solid (w : Text) : (w ++ r).takeWhile p = w.takeWhile p := by
  induction w with
  | nil => exact takeWhile_of_solidHead hp hr
  | cons c w ih => rw [List.cons_append, List.takeWhile_cons, List.takeWhile_cons, ih]

theorem dropWhile_append_solid (w : Text) : (w ++ r).dropWhile p = w.dropWhile p ++ r := by
  have hsplit := List.takeWhile_append_dropWhile (p := p) (l := w ++ r)
  have hw := List.takeWhile_append_dropWhile (p := p) (l := w)
  rw [takeWhile_append_solid hp hr] at hsplit
  have hsame : w.takeWhile p ++ (w ++ r).dropWhile p = w.takeWhile p ++ (w.dropWhile p ++ r) := by
    rw [hsplit, ← List.append_assoc, hw]
  exact List.append_cancel_left hsame

end Stretches

theorem takeWhile_blank_append {w r : Text} (hw : ∀ c ∈ w, isBlank c = true) (hr : SolidHead r) :
    (w ++ r).takeWhile isBlank = w := by
  rw [takeWhile_append_solid (fun _ h ↦ h) hr, List.takeWhile_eq_self_iff.2 hw]

theorem takeWhile_blank {w : Text} (hw : ∀ c ∈ w, isBlank c = true) : w.takeWhile isBlank = w :=
  List.takeWhile_eq_self_iff.2 hw

/-- White space after which its stretch still has a line break goes. -/
def squeeze : Text → Text
  | [] => []
  | c :: r =>
    if isBlank c && (r.takeWhile isBlank).contains '\n' then squeeze r else c :: squeeze r

section Squeeze

variable {w r t : Text}

theorem squeeze_blank_append (hw : ∀ c ∈ w, isBlank c = true) (hr : SolidHead r) :
    squeeze (w ++ r) = squeeze w ++ squeeze r := by
  induction w with
  | nil => rfl
  | cons c w ih =>
    rw [List.forall_mem_cons] at hw
    rw [List.cons_append, squeeze, squeeze, takeWhile_blank_append hw.2 hr, takeWhile_blank hw.2,
      ih hw.2]
    split <;> rfl

theorem squeeze_sublist (t : Text) : (squeeze t).Sublist t := by
  fun_induction squeeze t with
  | case1 => exact List.Sublist.refl _
  | case2 c r _ ih => exact ih.cons c
  | case3 c r _ ih => exact ih.cons_cons c

theorem squeeze_ne_nil (h : t ≠ []) : squeeze t ≠ [] := by
  fun_induction squeeze t with
  | case1 => exact absurd rfl h
  | case2 c r hdrop ih =>
    refine ih ?_
    rintro rfl
    simp at hdrop
  | case3 c r _ ih => exact List.cons_ne_nil _ _

theorem respaces_squeeze : Respaces squeeze where
  nil := rfl
  cons hc := by simp [squeeze, hc]
  gap hw hr := squeeze_blank_append hw.2 hr
  isGap hw := ⟨squeeze_ne_nil hw.1, fun c hc ↦ hw.2 c ((squeeze_sublist _).subset hc)⟩

theorem squeeze_eq_self (h : '\n' ∉ t) : squeeze t = t := by
  fun_induction squeeze t with
  | case1 => rfl
  | case2 c r hdrop ih =>
    rw [Bool.and_eq_true, List.contains_iff_mem] at hdrop
    have hmem := (List.takeWhile_prefix isBlank).subset hdrop.2
    exact absurd (List.mem_cons_of_mem c hmem) h
  | case3 c r _ ih => rw [ih fun hr ↦ h (List.mem_cons_of_mem c hr)]

theorem squeeze_concat_break (hw : ∀ c ∈ w, isBlank c = true) : squeeze (w ++ ['\n']) = ['\n'] := by
  induction w with
  | nil => rfl
  | cons c w ih =>
    rw [List.forall_mem_cons] at hw
    have hall : ∀ d ∈ w ++ ['\n'], isBlank d = true := by
      rw [List.forall_mem_append, List.forall_mem_singleton]
      exact ⟨hw.2, by decide⟩
    rw [List.cons_append, squeeze, takeWhile_blank hall, hw.1, ih hw.2]
    simp

theorem squeeze_squeeze (t : Text) : squeeze (squeeze t) = squeeze t := by
  refine (respaces_squeeze.comp respaces_squeeze).ext respaces_squeeze (fun w hw ↦ ?_) t
  obtain ⟨-, hw⟩ := hw
  induction w with
  | nil => rfl
  | cons c w ih =>
    rw [List.forall_mem_cons] at hw
    by_cases hbreak : '\n' ∈ w
    · have hstep : squeeze (c :: w) = squeeze w := by
        rw [squeeze, takeWhile_blank hw.2, hw.1]
        simp [hbreak]
      rw [Function.comp_apply, hstep]
      exact ih hw.2
    · have hstep : squeeze (c :: w) = c :: w := by
        rw [squeeze, takeWhile_blank hw.2, squeeze_eq_self hbreak]
        simp [hbreak]
      rw [Function.comp_apply, hstep, hstep]

/-- A text without white space at its ends, which the pass over the lines takes by itself and
turns into `u`. -/
structure Squeezes (t u : Text) : Prop where
  head : ∀ r, SolidHead (t ++ r)
  last : SolidLast t
  eq : squeeze t = u

theorem Squeezes.append {u : Text} (h : Squeezes t u) (r : Text) :
    squeeze (t ++ r) = u ++ squeeze r := by
  rw [respaces_squeeze.append_solidLast r h.last, h.eq]

end Squeeze

section Lines

def keptLines (ls : List Text) : List Text :=
  (ls.map (trimRight isBlank)).filter (!isBlankText ·)

theorem isBlankText_trimRight (t : Text) : isBlankText (trimRight isBlank t) = isBlankText t := by
  rw [isBlankText_eq, isBlankText_eq, ink_trimRight]

theorem keptLines_cons (h : Text) (ls : List Text) :
    keptLines (h :: ls) =
      if isBlankText h then keptLines ls else trimRight isBlank h :: keptLines ls := by
  rw [keptLines, List.map_cons, List.filter_cons, isBlankText_trimRight, ← keptLines]
  cases isBlankText h <;> rfl

theorem isBlankText_of_mem_keptLines {ls : List Text} {l : Text} (h : l ∈ keptLines ls) :
    isBlankText l = false := by
  simpa using (List.mem_filter.1 h).2

theorem lines_cons (c : Char) (r : Text) : ∃ h ls, lines r = h :: ls ∧
    lines (c :: r) = if c = '\n' then [] :: h :: ls else (c :: h) :: ls := by
  have hne : lines r ≠ [] := by
    rw [lines, splitOn]
    fun_cases splitBy (· == '\n') r <;> simp
  obtain ⟨h, ls, hls⟩ := List.exists_cons_of_ne_nil hne
  refine ⟨h, ls, hls, ?_⟩
  rw [lines, splitOn] at hls ⊢
  simp only [splitBy, hls, beq_iff_eq]

/-- The first stretch of white space holds a line break if the first line is blank and not the
only one. -/
theorem mem_takeWhile_iff {t h : Text} {ls : List Text} (hls : lines t = h :: ls) :
    '\n' ∈ t.takeWhile isBlank ↔ isBlankText h = true ∧ ls ≠ [] := by
  induction t generalizing h with
  | nil =>
    cases hls
    simp
  | cons c r ih =>
    obtain ⟨h', ls', hr, hc⟩ := lines_cons c r
    rw [hls] at hc
    split at hc
    next hbreak =>
      obtain ⟨rfl, rfl⟩ := List.cons.inj hc
      rw [hbreak, List.takeWhile_cons_of_pos (by decide)]
      simp [isBlankText]
    next hbreak =>
      obtain ⟨rfl, rfl⟩ := List.cons.inj hc
      cases hblank : isBlank c with
      | true =>
        rw [List.takeWhile_cons_of_pos hblank, List.mem_cons, or_iff_right (Ne.symm hbreak), ih hr]
        simp [isBlankText, hblank]
      | false => simp [hblank, isBlankText]

def breakBefore (t : Text) : Text := if t.isEmpty then [] else '\n' :: t

theorem trimRight_cons_solid {c : Char} (t : Text) (hc : isBlank c = false) :
    trimRight isBlank (c :: t) = c :: trimRight isBlank t := by
  rw [trimRight]
  split
  next h => rw [h, hc]; rfl
  next => rfl

theorem trimRight_cons_of_ne_nil {c : Char} {t : Text} (h : trimRight isBlank t ≠ []) :
    trimRight isBlank (c :: t) = c :: trimRight isBlank t := by
  rw [trimRight]
  split
  next hnil => exact absurd hnil h
  next => rfl

theorem trimRight_eq_nil_iff {t : Text} : trimRight isBlank t = [] ↔ isBlankText t = true := by
  rw [trimRight_eq_rdropWhile, List.rdropWhile_eq_nil_iff, isBlankText, List.all_eq_true]

theorem trimRight_break (t : Text) :
    trimRight isBlank ('\n' :: t) = breakBefore (trimRight isBlank t) := by
  rw [trimRight, breakBefore]
  cases trimRight isBlank t <;> rfl

theorem unlines_cons {x : Text} {ls : List Text} (h : ∀ l ∈ ls, isBlankText l = false) :
    unlines (x :: ls) = x ++ breakBefore (unlines ls) := by
  cases ls with
  | nil => simp [unlines, join, breakBefore]
  | cons y ls =>
    have hne : unlines (y :: ls) ≠ [] := by
      have hy := h y List.mem_cons_self
      cases y with
      | nil => cases hy
      | cons c y => cases ls <;> simp [unlines, join, List.intercalate]
    have hstep : unlines (x :: y :: ls) = x ++ '\n' :: unlines (y :: ls) := by
      simp [unlines, join, List.intercalate]
    rw [hstep, breakBefore, List.isEmpty_eq_false_iff.2 hne]
    rfl

/-- The first line and, each with a break before it, the other lines that are kept. -/
def layLines (h : Text) (ls : List Text) : Text :=
  trimRight isBlank h ++ breakBefore (unlines (keptLines ls))

theorem layLines_of_blank {h : Text} (ls : List Text) (hh : isBlankText h = true) :
    layLines h ls = breakBefore (unlines (keptLines ls)) := by
  rw [layLines, trimRight_eq_nil_iff.2 hh, List.nil_append]

theorem layLines_ne_nil {h : Text} (ls : List Text) (hh : isBlankText h = false) :
    layLines h ls ≠ [] := by
  refine List.append_ne_nil_of_left_ne_nil ?_ _
  rw [Ne, trimRight_eq_nil_iff, hh]
  exact Bool.false_ne_true

/-- A break, and then a line that is dropped or comes to stand after the break. -/
theorem layLines_break (h : Text) (ls : List Text) :
    layLines [] (h :: ls) =
      if isBlankText h then layLines h ls else '\n' :: layLines h ls := by
  rw [layLines_of_blank _ rfl, keptLines_cons]
  split
  next hh => rw [layLines_of_blank _ hh]
  next hh =>
    rw [unlines_cons fun l hl ↦ isBlankText_of_mem_keptLines hl, ← layLines, breakBefore,
      List.isEmpty_eq_false_iff.2 (layLines_ne_nil ls (Bool.eq_false_iff.2 hh))]
    rfl

theorem layLines_cons {c : Char} (h : Text) (ls : List Text) :
    layLines (c :: h) ls =
      if isBlank c && isBlankText h then layLines h ls else c :: layLines h ls := by
  split
  next hblank =>
    rw [Bool.and_eq_true] at hblank
    have hline : isBlankText (c :: h) = true := by
      rw [isBlankText, List.all_cons, hblank.1]
      exact hblank.2
    rw [layLines_of_blank _ hline, layLines_of_blank _ hblank.2]
  next hblank =>
    rw [layLines, layLines, ← List.cons_append]
    cases hc : isBlank c with
    | false => rw [trimRight_cons_solid _ hc]
    | true =>
      rw [hc, Bool.true_and] at hblank
      rw [trimRight_cons_of_ne_nil fun hnil ↦ hblank (trimRight_eq_nil_iff.1 hnil)]

theorem trimRight_squeeze {t h : Text} {ls : List Text} (hls : lines t = h :: ls) :
    trimRight isBlank (squeeze t) = layLines h ls := by
  induction t generalizing h ls with
  | nil =>
    cases hls
    rfl
  | cons c r ih =>
    obtain ⟨h', ls', hr, hc⟩ := lines_cons c r
    have ih := ih hr
    have hrun := mem_takeWhile_iff hr
    rw [hls] at hc
    have hlay : layLines h ls =
        if isBlank c && isBlankText h' then layLines h' ls' else c :: layLines h' ls' := by
      split at hc
      next hbreak =>
        obtain ⟨rfl, rfl⟩ := List.cons.inj hc
        rw [layLines_break, hbreak]
        rfl
      next =>
        obtain ⟨rfl, rfl⟩ := List.cons.inj hc
        exact layLines_cons h' _
    rw [hlay, squeeze]
    cases hblank : isBlank c with
    | false => rw [Bool.false_and, Bool.false_and, if_neg Bool.false_ne_true,
        if_neg Bool.false_ne_true, trimRight_cons_solid _ hblank, ih]
    | true =>
      simp only [Bool.true_and, List.contains_iff_mem, hrun]
      cases hh' : isBlankText h' with
      | false =>
        have hne : trimRight isBlank (squeeze r) ≠ [] := ih ▸ layLines_ne_nil ls' hh'
        rw [if_neg fun h ↦ Bool.false_ne_true h.1, if_neg Bool.false_ne_true,
          trimRight_cons_of_ne_nil hne, ih]
      | true =>
        rw [if_pos rfl]
        split
        · exact ih
        next hlast =>
          -- The text is blank to its end.
          have hnil : ls' = [] := by simpa using hlast
          have hempty : layLines h' ls' = [] := by rw [layLines_of_blank _ hh', hnil]; rfl
          rw [hempty] at ih ⊢
          rw [trimRight, ih]
          simp [hblank]

def dropBreak : Text → Text
  | '\n' :: t => t
  | t => t

theorem dropBreak_eq_self {t : Text} (h : t.head? ≠ some '\n') : dropBreak t = t := by
  fun_cases dropBreak t with
  | case1 t => exact absurd rfl h
  | case2 => rfl

theorem dropBreak_suffix (t : Text) : dropBreak t <:+ t := by
  fun_cases dropBreak t with
  | case1 t => exact List.suffix_cons '\n' t
  | case2 => exact List.suffix_rfl

theorem dropBreak_append {t : Text} (r : Text) (h : t ≠ []) :
    dropBreak (t ++ r) = dropBreak t ++ r := by
  by_cases hbreak : t.head? = some '\n'
  · obtain ⟨s, rfl⟩ := List.head?_eq_some_iff.1 hbreak
    rfl
  · rw [dropBreak_eq_self hbreak]
    refine dropBreak_eq_self fun hhead ↦ hbreak ?_
    rwa [List.head?_append_of_ne_nil _ h] at hhead

theorem head?_dropBreak {t : Text} (h : squeeze t = t) : (dropBreak t).head? ≠ some '\n' := by
  intro hhead
  have hbreak : t.head? = some '\n' := by
    by_contra hne
    rw [dropBreak_eq_self hne] at hhead
    exact hne hhead
  obtain ⟨r, rfl⟩ := List.head?_eq_some_iff.1 hbreak
  obtain ⟨s, rfl⟩ := List.head?_eq_some_iff.1 hhead
  have hstep : squeeze ('\n' :: '\n' :: s) = squeeze ('\n' :: s) := by simp [squeeze, isBlank]
  have hle := (squeeze_sublist ('\n' :: s)).length_le
  rw [← hstep, h, List.length_cons] at hle
  omega

theorem dropBreak_trimRight (t : Text) :
    dropBreak (trimRight isBlank t) = trimRight isBlank (dropBreak t) := by
  by_cases hbreak : t.head? = some '\n'
  · obtain ⟨r, rfl⟩ := List.head?_eq_some_iff.1 hbreak
    rw [trimRight_break, breakBefore, dropBreak]
    cases trimRight isBlank r <;> rfl
  · rw [dropBreak_eq_self hbreak]
    refine dropBreak_eq_self fun hhead ↦ hbreak ?_
    rw [trimRight_eq_rdropWhile] at hhead
    obtain ⟨s, hs⟩ := List.rdropWhile_prefix isBlank t
    rw [← hs, List.head?_append, hhead]
    rfl

/-- A text whose ends are trimmed stays as it is when a line break is put at its end. -/
theorem trimEnds_append_break {t : Text} (h : squeeze t = t) :
    trimRight isBlank (dropBreak (trimRight isBlank (dropBreak t) ++ "\n")) =
      trimRight isBlank (dropBreak t) := by
  have hbreak : ∀ c ∈ ("\n" : Text), isBlank c = true := List.forall_mem_singleton.2 rfl
  have hsolid := trimRight_eq_self_iff.2 (solidLast_trimRight (dropBreak t))
  by_cases hnil : trimRight isBlank (dropBreak t) = []
  · rw [hnil]
    rfl
  · have hhead : (trimRight isBlank (dropBreak t)).head? ≠ some '\n' := by
      intro hhead
      refine head?_dropBreak h ?_
      obtain ⟨s, hs⟩ := List.rdropWhile_prefix isBlank (dropBreak t)
      rw [← trimRight_eq_rdropWhile] at hs
      rw [← hs, List.head?_append, hhead]
      rfl
    rw [dropBreak_append _ hnil, dropBreak_eq_self hhead, trimRight_append_blank _ hbreak, hsolid]

theorem not_mem_of_mem_lines {t l : Text} (hl : l ∈ lines t) : '\n' ∉ l := not_mem_of_mem_splitOn hl

theorem lines_unlines {ls : List Text} (h : ∀ l ∈ ls, '\n' ∉ l) (hne : ls ≠ []) :
    lines (unlines ls) = ls := splitOn_join h hne

/-- The pass over the lines squeezes white space, and trims both ends of the text. -/
theorem tidyLines_eq (t : Text) :
    tidyLines t = dropBreak (trimRight isBlank (squeeze t)) ++ "\n" := by
  obtain ⟨h, ls, hls⟩ : ∃ h ls, lines t = h :: ls := by
    obtain ⟨h, ls, hls, -⟩ := lines_cons ' ' t
    exact ⟨h, ls, hls⟩
  have hkept : tidyLines t = unlines (keptLines (lines t)) ++ "\n" := rfl
  rw [hkept, trimRight_squeeze hls, hls, keptLines_cons]
  split
  next hh =>
    rw [layLines_of_blank _ hh, breakBefore]
    cases unlines (keptLines ls) <;> rfl
  next hh =>
    have hfirst : trimRight isBlank h ≠ [] := fun hnil ↦ hh (trimRight_eq_nil_iff.1 hnil)
    obtain ⟨c, s, hcs⟩ := List.exists_cons_of_ne_nil hfirst
    have hne : c ≠ '\n' := by
      rintro rfl
      have hmem : '\n' ∈ trimRight isBlank h := hcs ▸ List.mem_cons_self
      rw [trimRight_eq_rdropWhile] at hmem
      exact not_mem_of_mem_lines (hls ▸ List.mem_cons_self)
        ((List.rdropWhile_prefix isBlank h).subset hmem)
    have hsolid : dropBreak (layLines h ls) = layLines h ls := by
      refine dropBreak_eq_self fun hhead ↦ hne ?_
      rw [layLines, hcs] at hhead
      exact Option.some.inj hhead
    rw [hsolid, unlines_cons fun l hl ↦ isBlankText_of_mem_keptLines hl, layLines]

theorem exists_lines_tidyLines (t : Text) (h : isBlankText (tidyLines t) = false) :
    ∃ body, tidyLines t = body ++ "\n" ∧ body.getLast? ≠ some '\n' ∧
      ∀ l ∈ lines body, isBlankText l = false := by
  have hkept : tidyLines t = unlines (keptLines (lines t)) ++ "\n" := rfl
  have hne : keptLines (lines t) ≠ [] := by
    intro hnil
    rw [hkept, hnil] at h
    cases h
  have hbreak : ∀ l ∈ keptLines (lines t), '\n' ∉ l := by
    intro l hl hmem
    obtain ⟨m, hm, rfl⟩ := List.mem_map.1 (List.mem_filter.1 hl).1
    exact not_mem_of_mem_lines hm ((trimRight_isInfix m).subset hmem)
  refine ⟨_, hkept, ?_, ?_⟩
  · have hends := tidyLines_eq t
    rw [hkept, dropBreak_trimRight] at hends
    rw [List.append_cancel_right hends]
    exact fun hlast ↦ absurd (solidLast_trimRight _ _ hlast) (by decide)
  · rw [lines_unlines hbreak hne]
    exact fun l hl ↦ isBlankText_of_mem_keptLines hl

end Lines

end ViewForge.Erb
