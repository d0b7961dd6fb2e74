import ViewForge.Markup.Spacing
import ViewForge.Proofs.Text.Respacing
import ViewForge.Proofs.Text.Splitting

namespace ViewForge.Markup

open Text

def untabbed (l : Text) : Text := l.map fun c ↦ if c == '\t' then ' ' else c

def isEmptyLine (l : Text) : Bool := l.all fun c ↦ c == ' ' || c == '\t'

/-- What line `i` of `n` shows. The first keeps the spaces before it, the last those behind it. -/
def shownLine (n i : Nat) (l : Text) : Text :=
  let left := if i = 0 then untabbed l else (untabbed l).dropWhile isSpace
  if i + 1 = n then left else left.rdropWhile isSpace

def shownLines (ls : List Text) : List Text :=
  (ls.zipIdx.filter fun p ↦ !isEmptyLine p.1).map fun p ↦ shownLine ls.length p.2 p.1

def shownText : List Text → Text
  | [l] => untabbed l
  | ls => join " " (shownLines ls)

variable {raw t l : Text}

theorem unixBreaks_eq (t : Text) : unixBreaks t = replace "\r\n" "\n" t := by
  fun_induction unixBreaks t with
  | case1 => rfl
  | case2 r ih =>
    have hbreak := replace_append (by decide : ("\r\n" : Text) ≠ []) "\n" r
    exact (congrArg ('\n' :: ·) ih).trans hbreak.symm
  | case3 c r hpair ih =>
    rw [ih, replace_plain]
    rintro ⟨s, hs⟩
    obtain ⟨rfl, rfl⟩ := List.cons.inj hs
    exact hpair s rfl rfl

theorem lines_untabbed (t : Text) : lines (untabbed t) = (lines t).map untabbed := by
  induction t with
  | nil => rfl
  | cons c t ih =>
    obtain ⟨l, ls, hsplit⟩ := List.exists_cons_of_ne_nil (splitBy_ne_nil (· == '\n') t)
    have hbreak : ((if c == '\t' then ' ' else c) == '\n') = (c == '\n') := by
      by_cases hc : c = '\t' <;> simp [hc]
    have ih' : splitBy (· == '\n') (untabbed t) = untabbed l :: ls.map untabbed := by
      rw [lines, splitOn, lines, splitOn, hsplit] at ih
      exact ih
    have hcons : untabbed (c :: t) = (if c == '\t' then ' ' else c) :: untabbed t := rfl
    rw [lines, splitOn, lines, splitOn, hcons, splitBy, ih', splitBy, hsplit]
    simp only [hbreak]
    split <;> rfl

/-- Trimming from line `i` of `n` on. -/
theorem trimInner_untabbed {n i : Nat} {ls : List Text} (h : i + ls.length = n) :
    trimInner (i == 0) (ls.map untabbed) =
      (ls.zipIdx i).map fun p ↦ shownLine n p.2 p.1 := by
  induction ls generalizing i with
  | nil => rfl
  | cons l ls ih =>
    have hleft : (if (i == 0) = true then untabbed l else trimLeft isSpace (untabbed l)) =
        if i = 0 then untabbed l else (untabbed l).dropWhile isSpace := by
      simp [trimLeft]
    cases ls with
    | nil =>
      have hlast : i + 1 = n := h
      simp only [List.map_cons, List.map_nil, trimInner, List.zipIdx_singleton, shownLine, hleft,
        if_pos hlast]
    | cons m ls =>
      have hinner : i + 1 ≠ n := by simp only [List.length_cons] at h; omega
      have ih := ih (i := i + 1) (by simp only [List.length_cons] at h ⊢; omega)
      simp only [List.map_cons, trimInner, List.zipIdx_cons, shownLine, hleft, if_neg hinner,
        trimRight_eq_rdropWhile] at ih ⊢
      rw [← ih]
      rfl

theorem all_isSpace_untabbed (l : Text) : (untabbed l).all isSpace = isEmptyLine l := by
  rw [untabbed, List.all_map, isEmptyLine]
  refine congrArg l.all (funext fun c ↦ ?_)
  by_cases hc : c = '\t' <;> simp [isSpace, hc]

section Ink

theorem ink_lines (t : Text) : (lines t).flatMap ink = ink t := by
  induction t with
  | nil => rfl
  | cons c t ih =>
    obtain ⟨l, ls, hsplit⟩ := List.exists_cons_of_ne_nil (splitBy_ne_nil (· == '\n') t)
    have ih' : (l :: ls).flatMap ink = ink t := by rwa [lines, splitOn, hsplit] at ih
    rw [lines, splitOn, splitBy, hsplit]
    dsimp only
    by_cases hc : c = '\n'
    · rw [if_pos (by simpa using hc), List.flatMap_cons, ih', hc]
      rfl
    · rw [if_neg (by simpa using hc), ink_cons, ← ih', List.flatMap_cons, List.flatMap_cons,
        ink_cons, List.append_assoc]

theorem isBlank_of_isSpace (c : Char) (h : isSpace c = true) : isBlank c = true := by
  rw [beq_iff_eq.1 h]
  decide

theorem ink_unixBreaks (t : Text) : ink (unixBreaks t) = ink t := by
  fun_induction unixBreaks t with
  | case1 => rfl
  | case2 r ih =>
    rw [ink_cons, ink_cons '\r', ink_cons '\n' r, ih]
    rfl
  | case3 c r hpair ih => rw [ink_cons, ih, ← ink_cons]

theorem ink_untabbed (t : Text) : ink (untabbed t) = ink t := by
  induction t with
  | nil => rfl
  | cons c t ih =>
    have hcons : untabbed (c :: t) = (if c == '\t' then ' ' else c) :: untabbed t := rfl
    rw [hcons, ink_cons, ih, ink_cons c]
    by_cases hc : c = '\t'
    · rw [hc]
      rfl
    · rw [if_neg (by simpa using hc)]

theorem ink_trimInner (isFirst : Bool) (ls : List Text) :
    (trimInner isFirst ls).flatMap ink = ls.flatMap ink := by
  have hleft (isFirst : Bool) (l : Text) :
      ink (if isFirst then l else trimLeft isSpace l) = ink l := by
    split
    · rfl
    · exact ink_trimLeft_of isBlank_of_isSpace l
  fun_induction trimInner isFirst ls with
  | case1 => rfl
  | case2 isFirst l => rw [List.flatMap_singleton, List.flatMap_singleton, hleft]
  | case3 isFirst l r hr ih =>
    rw [List.flatMap_cons, List.flatMap_cons, ih, ink_trimRight_of isBlank_of_isSpace, hleft]

/-- Only white space is lost of a run of source. -/
theorem ink_cleanText (raw : Text) : ink (cleanText raw) = ink raw := by
  have htabs := ink_untabbed (unixBreaks raw)
  rw [untabbed] at htabs
  rw [cleanText, ink_join (by decide), flatMap_ink_filter, ink_trimInner, ink_lines, htabs,
    ink_unixBreaks]

end Ink

/-- Of several lines the ones that show nothing are those without content. -/
theorem shownLine_eq_nil_iff {n i : Nat} (h : i ≠ 0 ∨ i + 1 ≠ n) (l : Text) :
    shownLine n i l = [] ↔ isEmptyLine l = true := by
  have hall : isEmptyLine l = true ↔ ∀ c ∈ untabbed l, isSpace c = true := by
    rw [← all_isSpace_untabbed, List.all_eq_true]
  have hdrop (t : Text) : (∀ c ∈ t.dropWhile isSpace, isSpace c = true) ↔
      ∀ c ∈ t, isSpace c = true := by
    refine ⟨fun ht c hc ↦ ?_, fun ht c hc ↦ ht c ((List.dropWhile_sublist _).subset hc)⟩
    rw [← List.takeWhile_append_dropWhile (p := isSpace) (l := t), List.mem_append] at hc
    exact hc.elim List.mem_takeWhile_imp (ht c)
  rw [hall, shownLine]
  by_cases hfirst : i = 0
  · have hlast : i + 1 ≠ n := h.resolve_left (not_not.2 hfirst)
    simp only [if_pos hfirst, if_neg hlast, List.rdropWhile_eq_nil_iff]
  · by_cases hlast : i + 1 = n
    · simp only [if_neg hfirst, if_pos hlast, List.dropWhile_eq_nil_iff]
    · simp only [if_neg hfirst, if_neg hlast, List.rdropWhile_eq_nil_iff, hdrop]

theorem join_filter_singleton (l : Text) : join " " ([l].filter (!·.isEmpty)) = l := by
  cases l <;> simp [join]

theorem cleanText_eq (raw : Text) :
    cleanText raw = shownText (lines (replace "\r\n" "\n" raw)) := by
  have hmap : (unixBreaks raw).map (fun c ↦ if c == '\t' then ' ' else c) =
      untabbed (replace "\r\n" "\n" raw) := congrArg untabbed (unixBreaks_eq raw)
  rw [cleanText, hmap, lines_untabbed]
  generalize lines (replace "\r\n" "\n" raw) = ls
  have htrim : trimInner true (ls.map untabbed) =
      ls.zipIdx.map fun p ↦ shownLine ls.length p.2 p.1 :=
    trimInner_untabbed (i := 0) (Nat.zero_add _)
  match ls with
  | [] => rfl
  | [l] => exact join_filter_singleton (untabbed l)
  | l :: m :: ls =>
    rw [htrim, List.filter_map, shownText, shownLines]
    · refine congrArg (fun ps ↦ join " " (List.map _ ps)) (List.filter_congr fun p hp ↦ ?_)
      -- No line is both the first and the last of several.
      have hplace : p.2 ≠ 0 ∨ p.2 + 1 ≠ (l :: m :: ls).length := by
        simp only [List.length_cons]; omega
      rw [Function.comp_apply, Bool.eq_iff_iff, Bool.not_eq_true', Bool.not_eq_true',
        ← Bool.not_eq_true, ← Bool.not_eq_true, List.isEmpty_iff, shownLine_eq_nil_iff hplace]
    · exact fun x h ↦ List.cons_ne_nil _ _ (List.cons.inj h).2

theorem shownLine_subset (n i : Nat) (l : Text) : shownLine n i l ⊆ untabbed l := by
  have hleft : (if i = 0 then untabbed l else (untabbed l).dropWhile isSpace) ⊆ untabbed l := by
    split
    · exact List.Subset.refl _
    · exact (List.dropWhile_sublist _).subset
  rw [shownLine]
  split
  · exact hleft
  · exact List.Subset.trans (List.rdropWhile_prefix _ _).subset hleft

/-- What is shown is made of the lines and the spaces between them. -/
theorem mem_of_mem_shownText {c : Char} {ls : List Text} (h : c ∈ shownText ls) :
    c = ' ' ∨ ∃ l ∈ ls, c ∈ untabbed l := by
  unfold shownText at h
  split at h
  next l => exact .inr ⟨l, List.mem_singleton_self l, h⟩
  next =>
    rcases mem_or_of_mem_join h with h | ⟨t, ht, hc⟩
    · exact .inl (List.mem_singleton.1 h)
    · obtain ⟨p, hp, rfl⟩ := List.mem_map.1 ht
      have hmem := List.fst_mem_of_mem_zipIdx (List.mem_filter.1 hp).1
      exact .inr ⟨p.1, hmem, shownLine_subset _ _ _ hc⟩

theorem tab_not_mem_untabbed (l : Text) : '\t' ∉ untabbed l := by
  rw [untabbed, List.mem_map]
  rintro ⟨c, -, hc⟩
  split at hc
  · exact absurd hc (by decide)
  next h => exact h (beq_iff_eq.2 hc)

theorem break_not_mem_untabbed (h : '\n' ∉ l) : '\n' ∉ untabbed l := by
  rw [untabbed, List.mem_map]
  rintro ⟨c, hmem, hc⟩
  split at hc
  · exact absurd hc (by decide)
  · exact h (hc ▸ hmem)

theorem tab_not_mem_cleanText (raw : Text) : '\t' ∉ cleanText raw := by
  rw [cleanText_eq]
  intro h
  rcases mem_of_mem_shownText h with h | ⟨l, -, h⟩
  · exact absurd h (by decide)
  · exact tab_not_mem_untabbed l h

theorem break_not_mem_cleanText (raw : Text) : '\n' ∉ cleanText raw := by
  rw [cleanText_eq]
  intro h
  rcases mem_of_mem_shownText h with h | ⟨l, hl, h⟩
  · exact absurd h (by decide)
  · exact break_not_mem_untabbed (not_mem_of_mem_splitOn hl) h

/-- Text without tabs and line breaks is shown as it stands. -/
theorem cleanText_of_plain (hbreak : '\n' ∉ t) (htab : '\t' ∉ t) : cleanText t = t := by
  have hpair : replace "\r\n" "\n" t = t := by
    induction t with
    | nil => rfl
    | cons c t ih =>
      rw [List.mem_cons, not_or] at hbreak htab
      rw [replace_plain, ih hbreak.2 htab.2]
      rintro ⟨s, hs⟩
      obtain ⟨-, rfl⟩ := List.cons.inj hs
      exact hbreak.2 List.mem_cons_self
  have hline : lines t = [t] :=
    splitBy_of_none fun c hc ↦ beq_false_of_ne fun h ↦ hbreak (h ▸ hc)
  rw [cleanText_eq, hpair, hline, shownText, untabbed]
  refine (List.map_congr_left fun c hc ↦ ?_).trans (List.map_id t)
  have hne : c ≠ '\t' := fun h ↦ htab (h ▸ hc)
  simp [hne]

theorem join_eq_nil_iff {sep : Text} {ts : List Text} (h : ∀ t ∈ ts, t ≠ []) :
    join sep ts = [] ↔ ts = [] := by
  refine ⟨fun hnil ↦ ?_, fun hts ↦ by rw [hts]; rfl⟩
  cases ts with
  | nil => rfl
  | cons t ts =>
    obtain ⟨c, hc⟩ := List.exists_mem_of_ne_nil t (h t List.mem_cons_self)
    have hmem : c ∈ join sep (t :: ts) := mem_join List.mem_cons_self hc
    exact absurd (hnil ▸ hmem) List.not_mem_nil

theorem shownText_eq_nil_iff (ls : List Text) (h : ls ≠ []) :
    shownText ls = [] ↔ ls = [[]] ∨ 1 < ls.length ∧ ∀ l ∈ ls, isEmptyLine l = true := by
  match ls, h with
  | [l], _ => simp [shownText, untabbed]
  | l :: m :: ls, _ =>
    have hlength : 1 < (l :: m :: ls).length := by simp
    have hshown : ∀ t ∈ shownLines (l :: m :: ls), t ≠ [] := by
      intro t ht hnil
      obtain ⟨p, hp, rfl⟩ := List.mem_map.1 ht
      have hplace : p.2 ≠ 0 ∨ p.2 + 1 ≠ (l :: m :: ls).length := by omega
      rw [shownLine_eq_nil_iff hplace] at hnil
      have hfilter := (List.mem_filter.1 hp).2
      rw [hnil] at hfilter
      cases hfilter
    have hjoin : join " " (shownLines (l :: m :: ls)) = [] ↔ shownLines (l :: m :: ls) = [] :=
      join_eq_nil_iff hshown
    have hall : shownLines (l :: m :: ls) = [] ↔
        ∀ k ∈ l :: m :: ls, isEmptyLine k = true := by
      rw [shownLines, List.map_eq_nil_iff, List.filter_eq_nil_iff]
      simp only [Bool.not_eq_true', Bool.not_eq_false]
      rw [← List.forall_mem_map (f := Prod.fst) (P := fun k ↦ isEmptyLine k = true),
        List.zipIdx_map_fst]
    rw [← hall, ← hjoin]
    simp [shownText]

theorem lines_eq_nil_singleton_iff (t : Text) : lines t = [[]] ↔ t = [] := by
  refine ⟨fun h ↦ ?_, fun h ↦ by rw [h]; rfl⟩
  cases t with
  | nil => rfl
  | cons c t =>
    obtain ⟨l, ls, hsplit⟩ := List.exists_cons_of_ne_nil (splitBy_ne_nil (· == '\n') t)
    cases hc : (c == '\n') <;> simp [lines, splitOn, splitBy, hsplit, hc] at h

theorem unixBreaks_eq_nil_iff : unixBreaks t = [] ↔ t = [] := by
  fun_cases unixBreaks t <;> simp

/-- The text between two tags shows its lines: a single line as it stands, of several lines those
with content. So no line break and no tab is left of it, it is empty only if nothing has content,
and a text once cleaned stays as it is. -/
theorem cleanText_lines (raw : Text) :
    cleanText raw = shownText (lines (replace "\r\n" "\n" raw)) ∧
    '\n' ∉ cleanText raw ∧ '\t' ∉ cleanText raw ∧
    (cleanText raw = [] ↔ raw = [] ∨ 1 < (lines (replace "\r\n" "\n" raw)).length ∧
      ∀ l ∈ lines (replace "\r\n" "\n" raw), isEmptyLine l = true) ∧
    cleanText (cleanText raw) = cleanText raw := by
  have hbreak := break_not_mem_cleanText raw
  have htab := tab_not_mem_cleanText raw
  refine ⟨cleanText_eq raw, hbreak, htab, ?_, cleanText_of_plain hbreak htab⟩
  have hlines : lines (replace "\r\n" "\n" raw) ≠ [] := splitBy_ne_nil _ _
  rw [cleanText_eq, shownText_eq_nil_iff _ hlines, lines_eq_nil_singleton_iff, ← unixBreaks_eq,
    unixBreaks_eq_nil_iff]

/-- Indentation and blank lines go; the space that ends the last line stays. -/
example : cleanText "\n  Hello \n\n\tbig  world " = "Hello big  world " := by decide

end ViewForge.Markup
