import ViewForge.Erb.Token
import Mathlib.Data.List.Infix

namespace ViewForge.Erb

open Text

theorem startsWith_iff {t pat : Text} : startsWith t pat = true ↔ pat <+: t :=
  List.isPrefixOf_iff_prefix

theorem startsWith_append {t pat : Text} (s : Text) (h : startsWith t pat = true) :
    startsWith (t ++ s) pat = true :=
  startsWith_iff.2 ((startsWith_iff.1 h).trans (List.prefix_append t s))

theorem startsWith_of_append {t s pat : Text} (h : startsWith (t ++ s) pat = true)
    (hl : pat.length ≤ t.length) : startsWith t pat = true :=
  startsWith_iff.2
    (List.prefix_of_prefix_length_le (startsWith_iff.1 h) (List.prefix_append t s) hl)

theorem endsWith_iff {t pat : Text} : endsWith t pat = true ↔ pat <:+ t := by
  rw [endsWith, List.isPrefixOf_iff_prefix, List.reverse_prefix]

/-- A step of a search that passes over `k` characters. -/
theorem map_add_eq_some_iff {find find' : Option Nat} {k l : Nat}
    (h : ∀ m, find' = some m ∧ m ≤ l ↔ find = some m) (n : Nat) :
    find'.map (· + k) = some n ∧ n ≤ l + k ↔ find.map (· + k) = some n := by
  constructor
  · rintro ⟨hn, hle⟩
    obtain ⟨m, hm, rfl⟩ := Option.map_eq_some_iff.1 hn
    exact Option.map_eq_some_iff.2 ⟨m, (h m).1 ⟨hm, by omega⟩, rfl⟩
  · intro hn
    obtain ⟨m, hm, rfl⟩ := Option.map_eq_some_iff.1 hn
    obtain ⟨hm', hle⟩ := (h m).2 hm
    exact ⟨Option.map_eq_some_iff.2 ⟨m, hm', rfl⟩, by omega⟩

section Searches

variable {pat : Text} (hp : pat ≠ [])

theorem lengthThrough_bounds {t : Text} {n : Nat} (h : lengthThrough pat t = some n) :
    pat.length ≤ n ∧ n ≤ t.length := by
  induction t generalizing n with
  | nil => simp [lengthThrough] at h
  | cons c r ih =>
    simp only [lengthThrough] at h
    split at h
    next hpre =>
      have hle := (List.isPrefixOf_iff_prefix.1 hpre).length_le
      have hn : pat.length = n := Option.some.inj h
      omega
    next =>
      obtain ⟨m, hm, rfl⟩ := Option.map_eq_some_iff.1 h
      have hb := ih hm
      simp only [List.length_cons]
      omega

include hp in
theorem lengthThrough_append_iff {a b : Text} {n : Nat} :
    lengthThrough pat (a ++ b) = some n ∧ n ≤ a.length ↔ lengthThrough pat a = some n := by
  have hpos : 0 < pat.length := List.length_pos_iff.2 hp
  induction a generalizing n with
  | nil =>
    constructor
    · rintro ⟨h, hn⟩
      have hb := lengthThrough_bounds h
      simp only [List.length_nil] at hn
      omega
    · intro h
      simp [lengthThrough] at h
  | cons c r ih =>
    rw [List.cons_append, lengthThrough, lengthThrough]
    by_cases hin : pat.isPrefixOf (c :: r) = true
    · have hout : pat.isPrefixOf (c :: (r ++ b)) = true := startsWith_append b hin
      have hle := (List.isPrefixOf_iff_prefix.1 hin).length_le
      rw [if_pos hin, if_pos hout]
      constructor
      · exact fun h ↦ h.1
      · intro h
        exact ⟨h, by rw [← Option.some.inj h]; exact hle⟩
    · rw [if_neg hin]
      by_cases hout : pat.isPrefixOf (c :: (r ++ b)) = true
      · -- the pattern begins here but needs characters of `b`
        rw [if_pos hout]
        have hlt : (c :: r).length < pat.length := by
          by_contra hge
          exact hin (startsWith_of_append hout (Nat.le_of_not_lt hge))
        constructor
        · rintro ⟨h, hn⟩
          rw [← Option.some.inj h] at hn
          omega
        · intro h
          obtain ⟨m, hm, rfl⟩ := Option.map_eq_some_iff.1 h
          have hb := lengthThrough_bounds hm
          simp only [List.length_cons] at hlt
          omega
      · rw [if_neg hout, List.length_cons]
        exact map_add_eq_some_iff (fun m ↦ ih) n

theorem suffix_take_of_lengthThrough {t : Text} {n : Nat} (h : lengthThrough pat t = some n) :
    pat <:+ t.take n := by
  induction t generalizing n with
  | nil => simp [lengthThrough] at h
  | cons c r ih =>
    simp only [lengthThrough] at h
    split at h
    next hpre =>
      obtain ⟨s, hs⟩ := List.isPrefixOf_iff_prefix.1 hpre
      rw [← Option.some.inj h, ← hs, List.take_left]
    next =>
      obtain ⟨m, hm, rfl⟩ := Option.map_eq_some_iff.1 h
      rw [List.take_succ_cons]
      exact (ih hm).trans (List.suffix_cons c _)

include hp in
theorem lengthThrough_eq_none_iff {t : Text} : lengthThrough pat t = none ↔ ¬pat <:+: t := by
  induction t with
  | nil => simpa [lengthThrough] using hp
  | cons c r ih =>
    rw [lengthThrough, List.infix_cons_iff, not_or, ← List.isPrefixOf_iff_prefix]
    by_cases hpre : pat.isPrefixOf (c :: r) = true
    · simp [hpre]
    · simp [hpre, ih]

end Searches

theorem codeLength_bounds {q : Option Char} {t : Text} {n : Nat} (h : codeLength q t = some n) :
    2 ≤ n ∧ n ≤ t.length := by
  fun_induction codeLength q t generalizing n with
  | case1 => cases h
  | case2 => cases h
  | case3 q d r ih =>
    obtain ⟨m, hm, rfl⟩ := Option.map_eq_some_iff.1 h
    have hb := ih hm
    simp only [List.length_cons]
    omega
  | case4 q c r _ _ ih =>
    obtain ⟨m, hm, rfl⟩ := Option.map_eq_some_iff.1 h
    have hb := ih hm
    simp only [List.length_cons]
    omega
  | case5 c r _ ih =>
    obtain ⟨m, hm, rfl⟩ := Option.map_eq_some_iff.1 h
    have hb := ih hm
    simp only [List.length_cons]
    omega
  | case6 c r _ hend =>
    have hle := (startsWith_iff.1 hend).length_le
    have hn : 2 = n := Option.some.inj h
    exact ⟨hn.le, hn ▸ hle⟩
  | case7 c r _ _ ih =>
    obtain ⟨m, hm, rfl⟩ := Option.map_eq_some_iff.1 h
    have hb := ih hm
    simp only [List.length_cons]
    omega

theorem codeLength_append_iff {q : Option Char} {a b : Text} {n : Nat} :
    codeLength q (a ++ b) = some n ∧ n ≤ a.length ↔ codeLength q a = some n := by
  fun_induction codeLength q a generalizing n with
  | case1 q =>
    constructor
    · rintro ⟨h, hn⟩
      have hb := codeLength_bounds h
      simp only [List.length_nil] at hn
      omega
    · intro h
      cases h
  | case2 q =>
    constructor
    · rintro ⟨h, hn⟩
      have hb := codeLength_bounds h
      simp only [List.length_singleton] at hn
      omega
    · intro h
      cases h
  | case3 q d r ih =>
    simp only [List.cons_append, codeLength, List.length_cons]
    exact map_add_eq_some_iff (fun m ↦ ih) n
  | case4 q c r h₁ h₂ ih =>
    have hstep : codeLength (some q) (c :: (r ++ b)) =
        (codeLength (if c == q then none else some q) (r ++ b)).map (· + 1) := by
      rw [codeLength]
      · rintro rfl hr
        obtain ⟨rfl, -⟩ := List.append_eq_nil_iff.1 hr
        exact h₁ rfl rfl
      · rintro d s rfl hr
        cases r with
        | nil => exact h₁ rfl rfl
        | cons e r => exact h₂ e r rfl rfl
    rw [List.cons_append, hstep, List.length_cons]
    exact map_add_eq_some_iff (fun m ↦ ih) n
  | case5 c r hq ih =>
    simp only [List.cons_append, codeLength, if_pos hq, List.length_cons]
    exact map_add_eq_some_iff (fun m ↦ ih) n
  | case6 c r hq hend =>
    have hout : startsWith (c :: (r ++ b)) "%>" = true := startsWith_append b hend
    have hle : 2 ≤ (c :: r).length := (startsWith_iff.1 hend).length_le
    simp only [List.cons_append, codeLength, if_neg hq, if_pos hout]
    constructor
    · exact fun h ↦ h.1
    · intro h
      exact ⟨h, by rw [← Option.some.inj h]; exact hle⟩
  | case7 c r hq hend ih =>
    by_cases hout : startsWith (c :: (r ++ b)) "%>" = true
    · -- the `%` stands at the end of the text and the `>` after it
      have hlt : (c :: r).length < 2 := by
        by_contra hge
        exact hend (startsWith_of_append hout (Nat.le_of_not_lt hge))
      have hr : r = [] := by
        cases r with
        | nil => rfl
        | cons d s =>
          simp only [List.length_cons] at hlt
          omega
      subst hr
      simp only [List.cons_append, codeLength, if_neg hq, if_pos hout]
      constructor
      · rintro ⟨h, hn⟩
        rw [← Option.some.inj h] at hn
        simp at hn
      · intro h
        cases h
    · simp only [List.cons_append, codeLength, if_neg hq, if_neg hout, List.length_cons]
      exact map_add_eq_some_iff (fun m ↦ ih) n

theorem suffix_take_of_codeLength {q : Option Char} {t : Text} {n : Nat}
    (h : codeLength q t = some n) : ("%>" : Text) <:+ t.take n := by
  fun_induction codeLength q t generalizing n with
  | case1 => cases h
  | case2 => cases h
  | case3 q d r ih =>
    obtain ⟨m, hm, rfl⟩ := Option.map_eq_some_iff.1 h
    exact (ih hm).trans ((List.suffix_cons d _).trans (List.suffix_cons '\\' _))
  | case4 q c r _ _ ih =>
    obtain ⟨m, hm, rfl⟩ := Option.map_eq_some_iff.1 h
    exact (ih hm).trans (List.suffix_cons c _)
  | case5 c r _ ih =>
    obtain ⟨m, hm, rfl⟩ := Option.map_eq_some_iff.1 h
    exact (ih hm).trans (List.suffix_cons c _)
  | case6 c r _ hend =>
    obtain ⟨s, hs⟩ := startsWith_iff.1 hend
    have hn : n = ("%>" : Text).length := (Option.some.inj h).symm
    rw [hn, ← hs, List.take_left]
  | case7 c r _ _ ih =>
    obtain ⟨m, hm, rfl⟩ := Option.map_eq_some_iff.1 h
    exact (ih hm).trans (List.suffix_cons c _)

theorem percentClose_ne_nil : ("%>" : Text) ≠ [] := by decide

theorem dashClose_ne_nil : ("-->" : Text) ≠ [] := by decide

/-- The search for the end of a directive: outside strings if it can be found there, else, and
always in a comment, the first `%>`. -/
def closing (kind : TokenKind) (t : Text) : Option Nat :=
  match kind with
  | .comment => lengthThrough "%>" t
  | _ => (codeLength none t).or (lengthThrough "%>" t)

theorem directiveLength_eq (t : Text) :
    directiveLength t = ((closing (directiveKind t) (t.drop 2)).map (· + 2)).getD t.length := by
  unfold directiveLength closing
  cases hfirst : lengthThrough "%>" (t.drop 2) with
  | none =>
    have hcode : codeLength none (t.drop 2) = none := by
      by_contra hsome
      obtain ⟨n, hn⟩ := Option.ne_none_iff_exists'.1 hsome
      exact (lengthThrough_eq_none_iff percentClose_ne_nil).1 hfirst
        ((suffix_take_of_codeLength hn).isInfix.trans (List.take_prefix n _).isInfix)
    cases directiveKind t <;> simp [hcode]
  | some first =>
    cases codeLength none (t.drop 2) <;> cases directiveKind t <;> simp

theorem closing_bounds {kind : TokenKind} {t : Text} {n : Nat} (h : closing kind t = some n) :
    2 ≤ n ∧ n ≤ t.length := by
  unfold closing at h
  split at h
  · exact lengthThrough_bounds h
  · rcases Option.or_eq_some_iff.1 h with hcode | ⟨-, hfirst⟩
    · exact codeLength_bounds hcode
    · exact lengthThrough_bounds hfirst

theorem suffix_take_of_closing {kind : TokenKind} {t : Text} {n : Nat}
    (h : closing kind t = some n) : ("%>" : Text) <:+ t.take n := by
  unfold closing at h
  split at h
  · exact suffix_take_of_lengthThrough h
  · rcases Option.or_eq_some_iff.1 h with hcode | ⟨-, hfirst⟩
    · exact suffix_take_of_codeLength hcode
    · exact suffix_take_of_lengthThrough hfirst

/-- Only this direction holds: where strings never close, the end depends on all that follows. -/
theorem closing_of_append {kind : TokenKind} {a b : Text} {n : Nat}
    (h : closing kind (a ++ b) = some n) (hn : n ≤ a.length) : closing kind a = some n := by
  unfold closing at h ⊢
  split at h
  · exact (lengthThrough_append_iff percentClose_ne_nil).1 ⟨h, hn⟩
  · rcases Option.or_eq_some_iff.1 h with hcode | ⟨hnone, hfirst⟩
    · exact Option.or_eq_some_iff.2 (.inl (codeLength_append_iff.1 ⟨hcode, hn⟩))
    · refine Option.or_eq_some_iff.2 (.inr ⟨?_, ?_⟩)
      · by_contra hsome
        obtain ⟨m, hm⟩ := Option.ne_none_iff_exists'.1 hsome
        rw [(codeLength_append_iff.2 hm).1] at hnone
        cases hnone
      · exact (lengthThrough_append_iff percentClose_ne_nil).1 ⟨hfirst, hn⟩

theorem directiveLength_le (t : Text) : directiveLength t ≤ t.length := by
  rw [directiveLength_eq]
  cases hc : closing (directiveKind t) (t.drop 2) with
  | none => exact le_rfl
  | some n =>
    have hb := closing_bounds hc
    rw [List.length_drop] at hb
    simp only [Option.map_some, Option.getD_some]
    omega

theorem closing_of_lt {t : Text} (h : directiveLength t < t.length) :
    ∃ n, closing (directiveKind t) (t.drop 2) = some n ∧ directiveLength t = n + 2 := by
  rw [directiveLength_eq] at h ⊢
  cases hc : closing (directiveKind t) (t.drop 2) with
  | none => simp only [hc, Option.map_none, Option.getD_none, lt_irrefl] at h
  | some n => exact ⟨n, rfl, rfl⟩

theorem directiveKind_append {a : Text} (b : Text) (h : 3 ≤ a.length) :
    directiveKind (a ++ b) = directiveKind a := by
  rw [directiveKind, directiveKind, List.getElem?_append_left h]

/-- A directive that ends inside a text ends there whatever follows. -/
theorem directiveLength_append {a b : Text} (h : directiveLength (a ++ b) ≤ a.length) :
    directiveLength a = directiveLength (a ++ b) := by
  cases b with
  | nil => rw [List.append_nil]
  | cons c r =>
    have hlt : directiveLength (a ++ c :: r) < (a ++ c :: r).length := by
      rw [List.length_append, List.length_cons]
      omega
    obtain ⟨n, hn, hlen⟩ := closing_of_lt hlt
    have hb := closing_bounds hn
    have hdrop : (a ++ c :: r).drop 2 = a.drop 2 ++ c :: r :=
      List.drop_append_of_le_length (by omega)
    rw [directiveKind_append _ (by omega), hdrop] at hn
    have hin := closing_of_append hn (by rw [List.length_drop]; omega)
    rw [directiveLength_eq a, hin, hlen]
    rfl

theorem two_le_directiveLength {t : Text} (h : startsDirective t = true) :
    2 ≤ directiveLength t := by
  rcases Nat.lt_or_ge (directiveLength t) t.length with hlt | hge
  · obtain ⟨n, -, hn⟩ := closing_of_lt hlt
    omega
  · exact (startsWith_iff.1 h).length_le.trans hge

theorem tagLength_le (k : Nat) (q : Option Char) (t : Text) : tagLength k q t ≤ t.length := by
  fun_induction tagLength k q t <;> simp only [List.length_cons, List.length_nil] <;> omega

theorem le_tagLength {k : Nat} {t : Text} (q : Option Char) (h : k ≤ t.length) :
    k ≤ tagLength k q t := by
  induction t generalizing k with
  | nil => simpa [tagLength] using h
  | cons c r ih =>
    cases k with
    | zero => exact Nat.zero_le _
    | succ k =>
      have hk := ih (k := k) (by simpa using h)
      simp only [tagLength]
      omega

theorem directiveLength_le_tagLength {q : Option Char} {c : Char} {r : Text}
    (h : startsDirective (c :: r) = true) :
    directiveLength (c :: r) ≤ tagLength 0 q (c :: r) := by
  have hle := directiveLength_le (c :: r)
  rw [List.length_cons] at hle
  have hmin := le_tagLength (k := directiveLength (c :: r) - 1) (t := r) q (by omega)
  simp only [tagLength, if_pos h]
  omega

theorem not_startsDirective_append {q : Option Char} {c : Char} {r b : Text}
    (hd : ¬startsDirective (c :: r) = true) (h : tagLength 0 q (c :: (r ++ b)) ≤ (c :: r).length) :
    ¬startsDirective (c :: (r ++ b)) = true := by
  intro hout
  have h2 := two_le_directiveLength hout
  have hle := directiveLength_le_tagLength (q := q) hout
  have hlen : ("<%" : Text).length ≤ (c :: r).length := h2.trans (hle.trans h)
  exact hd (startsWith_of_append (s := b) hout hlen)

theorem tagLength_append {k : Nat} {q : Option Char} {a b : Text}
    (h : tagLength k q (a ++ b) ≤ a.length) : tagLength k q a = tagLength k q (a ++ b) := by
  fun_induction tagLength k q a with
  | case1 k q => exact (Nat.le_zero.1 h).symm
  | case2 k q c r ih =>
    simp only [List.cons_append, tagLength, List.length_cons] at h ⊢
    rw [ih (by omega)]
  | case3 q c r hd ih =>
    have hout : startsDirective (c :: (r ++ b)) = true := startsWith_append b hd
    have hsame : directiveLength (c :: r) = directiveLength (c :: (r ++ b)) :=
      directiveLength_append ((directiveLength_le_tagLength hout).trans h)
    simp only [List.cons_append, tagLength, if_pos hout, List.length_cons, ← hsame] at h ⊢
    rw [ih (by omega)]
  | case4 c r hd d ih =>
    have hout := not_startsDirective_append hd h
    simp only [List.cons_append, tagLength, if_neg hout, List.length_cons] at h ⊢
    rw [ih (by omega)]
  | case5 c r hd hq ih =>
    have hout := not_startsDirective_append hd h
    simp only [List.cons_append, tagLength, if_neg hout, if_pos hq, List.length_cons] at h ⊢
    rw [ih (by omega)]
  | case6 c r hd hq hgt =>
    have hout := not_startsDirective_append hd h
    simp only [List.cons_append, tagLength, if_neg hout, if_neg hq, if_pos hgt]
  | case7 c r hd hq hgt ih =>
    have hout := not_startsDirective_append hd h
    simp only [List.cons_append, tagLength, if_neg hout, if_neg hq, if_neg hgt,
      List.length_cons] at h ⊢
    rw [ih (by omega)]

theorem suffix_take_tagLength {k : Nat} {q : Option Char} {t : Text}
    (h : tagLength k q t < t.length) : (">" : Text) <:+ t.take (tagLength k q t) := by
  fun_induction tagLength k q t with
  | case1 => exact absurd h (lt_irrefl _)
  | case2 k q c r ih =>
    simp only [List.length_cons] at h
    exact (ih (by omega)).trans (List.suffix_cons c _)
  | case3 q c r hd ih =>
    simp only [List.length_cons] at h
    exact (ih (by omega)).trans (List.suffix_cons c _)
  | case4 c r hd d ih =>
    simp only [List.length_cons] at h
    exact (ih (by omega)).trans (List.suffix_cons c _)
  | case5 c r hd hq ih =>
    simp only [List.length_cons] at h
    exact (ih (by omega)).trans (List.suffix_cons c _)
  | case6 c r hd hq hgt =>
    rw [beq_iff_eq.1 hgt]
    exact List.suffix_refl _
  | case7 c r hd hq hgt ih =>
    simp only [List.length_cons] at h
    exact (ih (by omega)).trans (List.suffix_cons c _)

theorem startsTag_iff {t : Text} : startsTag t = true ↔
    ∃ c r, isAsciiLetter c = true ∧ (t = '<' :: c :: r ∨ t = '<' :: '/' :: c :: r) := by
  fun_cases startsTag t with
  | case1 c r =>
    constructor
    · exact fun h ↦ ⟨c, r, h, .inr rfl⟩
    · rintro ⟨d, s, hd, h | h⟩
      · obtain ⟨rfl, -⟩ := List.cons.inj (List.cons.inj h).2
        simp [isAsciiLetter, isAsciiUpper, isAsciiLower] at hd
      · obtain ⟨rfl, -⟩ := List.cons.inj (List.cons.inj (List.cons.inj h).2).2
        exact hd
  | case2 c r hc =>
    constructor
    · exact fun h ↦ ⟨c, r, h, .inl rfl⟩
    · rintro ⟨d, s, hd, h | h⟩
      · obtain ⟨rfl, -⟩ := List.cons.inj (List.cons.inj h).2
        exact hd
      · obtain ⟨rfl, rfl⟩ := List.cons.inj (List.cons.inj h).2
        exact (hc d s rfl rfl).elim
  | case3 t h₁ h₂ =>
    constructor
    · exact fun h ↦ absurd h Bool.false_ne_true
    · rintro ⟨d, s, hd, h | h⟩
      · exact (h₂ d s h).elim
      · exact (h₁ d s h).elim

theorem startsTag_append {t : Text} (s : Text) (h : startsTag t = true) :
    startsTag (t ++ s) = true := by
  obtain ⟨c, r, hc, rfl | rfl⟩ := startsTag_iff.1 h
  · exact startsTag_iff.2 ⟨c, r ++ s, hc, .inl rfl⟩
  · exact startsTag_iff.2 ⟨c, r ++ s, hc, .inr rfl⟩

theorem startsMarkup_append {t : Text} (s : Text) (h : startsMarkup t = true) :
    startsMarkup (t ++ s) = true := by
  simp only [startsMarkup, Bool.or_eq_true] at h ⊢
  rcases h with (h | h) | h
  · exact .inl (.inl (startsWith_append s h))
  · exact .inl (.inr (startsWith_append s h))
  · exact .inr (startsTag_append s h)

theorem htmlCommentLength_le (t : Text) : htmlCommentLength t ≤ t.length := by
  unfold htmlCommentLength
  cases hn : lengthThrough "-->" (t.drop 4) with
  | none => exact le_rfl
  | some n =>
    have hb := lengthThrough_bounds hn
    have h3 : ("-->" : Text).length = 3 := rfl
    rw [List.length_drop, h3] at hb
    simp only
    omega

theorem lengthThrough_of_lt {t : Text} (h : htmlCommentLength t < t.length) :
    ∃ n, lengthThrough "-->" (t.drop 4) = some n ∧ htmlCommentLength t = n + 4 := by
  unfold htmlCommentLength at h ⊢
  cases hn : lengthThrough "-->" (t.drop 4) with
  | none => simp only [hn, lt_irrefl] at h
  | some n => exact ⟨n, rfl, rfl⟩

theorem htmlCommentLength_append {a b : Text} (h : htmlCommentLength (a ++ b) ≤ a.length) :
    htmlCommentLength a = htmlCommentLength (a ++ b) := by
  cases b with
  | nil => rw [List.append_nil]
  | cons c r =>
    have hlt : htmlCommentLength (a ++ c :: r) < (a ++ c :: r).length := by
      rw [List.length_append, List.length_cons]
      omega
    obtain ⟨n, hn, hlen⟩ := lengthThrough_of_lt hlt
    have hdrop : (a ++ c :: r).drop 4 = a.drop 4 ++ c :: r :=
      List.drop_append_of_le_length (by omega)
    rw [hdrop] at hn
    have hin := (lengthThrough_append_iff dashClose_ne_nil).1 ⟨hn, by rw [List.length_drop]; omega⟩
    rw [hlen, htmlCommentLength, hin]

theorem textLength_le (t : Text) : textLength t ≤ t.length := by
  fun_induction textLength t <;> simp only [List.length_cons, List.length_nil] <;> omega

theorem textLength_append {a b : Text} (h : a.length ≤ textLength (a ++ b)) :
    textLength a = a.length := by
  induction a with
  | nil => rfl
  | cons c r ih =>
    rw [List.cons_append, textLength] at h
    split at h
    next => simp at h
    next hout =>
      have hin : ¬startsMarkup (c :: r) = true := fun hm ↦ hout (startsMarkup_append b hm)
      rw [textLength, if_neg hin, ih (by simpa using h), List.length_cons]

theorem startsMarkup_drop_textLength {t : Text} (h : textLength t < t.length) :
    startsMarkup (t.drop (textLength t)) = true := by
  fun_induction textLength t with
  | case1 => exact absurd h (lt_irrefl _)
  | case2 c r hm => exact hm
  | case3 c r hm ih =>
    rw [List.drop_succ_cons]
    exact ih (by simpa using h)

section Lexemes

variable {t : Text}

theorem lexeme_of_directive (h : startsDirective t = true) :
    lexeme t = (directiveKind t, directiveLength t) := by
  rw [lexeme, if_pos h]

theorem lexeme_of_htmlComment (h : startsHtmlComment t = true) :
    lexeme t = (.htmlComment, htmlCommentLength t) := by
  have hd : ¬startsDirective t = true := by
    obtain ⟨s, rfl⟩ := startsWith_iff.1 h
    exact Bool.false_ne_true
  rw [lexeme, if_neg hd, if_pos h]

theorem ne_of_class {p : Char → Bool} {c d : Char} (hc : p c = true) (hd : p d = false) :
    c ≠ d := by
  rintro rfl
  rw [hc] at hd
  cases hd

theorem beq_of_class {p : Char → Bool} {c d : Char} (hc : p c = true) (hd : p d = false) :
    (d == c) = false :=
  beq_eq_false_iff_ne.2 (ne_of_class hc hd).symm

theorem isQuote_of_isBlank {c : Char} (h : isBlank c = true) : isQuote c = false := by
  simp only [isQuote, Bool.or_eq_false_iff, beq_eq_false_iff_ne]
  exact ⟨ne_of_class h (by decide), ne_of_class h (by decide)⟩

theorem lexeme_of_tag (h : startsTag t = true) :
    lexeme t = (if t[1]? == some '/' then .closeTag else .openTag,
      tagLength 0 none (t.drop 1) + 1) := by
  have hd : startsDirective t = false ∧ startsHtmlComment t = false := by
    obtain ⟨c, r, hc, rfl | rfl⟩ := startsTag_iff.1 h
    · have hpercent : ('%' == c) = false := beq_of_class hc (by decide)
      have hbang : ('!' == c) = false := beq_of_class hc (by decide)
      constructor
      · change ('<' == '<' && ('%' == c && true)) = false
        rw [hpercent]
        rfl
      · change ('<' == '<' && ('!' == c && _)) = false
        rw [hbang]
        rfl
    · exact ⟨rfl, rfl⟩
  rw [lexeme, hd.1, hd.2, if_pos h]
  rfl

theorem lexeme_of_text (h : ¬startsMarkup t = true) :
    lexeme t = (.text, textLength (t.drop 1) + 1) := by
  simp only [startsMarkup, Bool.or_eq_true, not_or] at h
  rw [lexeme, if_neg h.1.1, if_neg h.1.2, if_neg h.2]

theorem startsMarkup_cases (t : Text) :
    startsDirective t = true ∨ startsHtmlComment t = true ∨ startsTag t = true ∨
      ¬startsMarkup t = true := by
  simp only [startsMarkup, Bool.or_eq_true]
  tauto

theorem lexeme_length_le (h : t ≠ []) : (lexeme t).2 ≤ t.length := by
  have hpos : 0 < t.length := List.length_pos_iff.2 h
  rcases startsMarkup_cases t with hs | hs | hs | hs
  · rw [lexeme_of_directive hs]
    exact directiveLength_le t
  · rw [lexeme_of_htmlComment hs]
    exact htmlCommentLength_le t
  · have hle := tagLength_le 0 none (t.drop 1)
    rw [List.length_drop] at hle
    rw [lexeme_of_tag hs]
    simp only
    omega
  · have hle := textLength_le (t.drop 1)
    rw [List.length_drop] at hle
    rw [lexeme_of_text hs]
    simp only
    omega

theorem four_le_htmlCommentLength (h : startsHtmlComment t = true) : 4 ≤ htmlCommentLength t := by
  rcases Nat.lt_or_ge (htmlCommentLength t) t.length with hlt | hge
  · obtain ⟨n, -, hn⟩ := lengthThrough_of_lt hlt
    omega
  · exact (startsWith_iff.1 h).length_le.trans hge

theorem lexeme_length_pos (t : Text) : 0 < (lexeme t).2 := by
  rcases startsMarkup_cases t with hs | hs | hs | hs
  · rw [lexeme_of_directive hs]
    exact (two_le_directiveLength hs).trans_lt' Nat.zero_lt_two
  · rw [lexeme_of_htmlComment hs]
    exact (four_le_htmlCommentLength hs).trans_lt' (by decide)
  · rw [lexeme_of_tag hs]
    exact Nat.succ_pos _
  · rw [lexeme_of_text hs]
    exact Nat.succ_pos _

end Lexemes

theorem tagLength_pos {t : Text} (k : Nat) (q : Option Char) (h : t ≠ []) :
    0 < tagLength k q t := by
  fun_cases tagLength k q t with
  | case1 => exact absurd rfl h
  | case6 => exact Nat.one_pos
  | _ => exact Nat.succ_pos _

theorem startsTag_of_append {a b : Text} (h : startsTag (a ++ b) = true)
    (hl : tagLength 0 none ((a ++ b).drop 1) + 1 ≤ a.length) : startsTag a = true := by
  obtain ⟨c, r, hc, hab | hab⟩ := startsTag_iff.1 h
  · have hlen : ['<', c].length ≤ a.length := by
      have hpos := tagLength_pos 0 none (List.cons_ne_nil c r)
      rw [hab] at hl
      exact (Nat.succ_le_succ hpos).trans hl
    obtain ⟨s, rfl⟩ := List.prefix_of_prefix_length_le
      (hab ▸ ⟨r, rfl⟩ : ['<', c] <+: a ++ b) (List.prefix_append a b) hlen
    exact startsTag_iff.2 ⟨c, s, hc, .inl rfl⟩
  · have hlen : ['<', '/', c].length ≤ a.length := by
      have hpos := tagLength_pos 0 none (List.cons_ne_nil c r)
      have hslash : tagLength 0 none ('/' :: c :: r) = tagLength 0 none (c :: r) + 1 := rfl
      rw [hab, List.drop_one, List.tail_cons, hslash] at hl
      exact (Nat.succ_le_succ (Nat.succ_le_succ hpos)).trans hl
    obtain ⟨s, rfl⟩ := List.prefix_of_prefix_length_le
      (hab ▸ ⟨r, rfl⟩ : ['<', '/', c] <+: a ++ b) (List.prefix_append a b) hlen
    exact startsTag_iff.2 ⟨c, s, hc, .inr rfl⟩

/-- A token read alone has the kind and the length it was cut with. -/
theorem lexeme_append {a b : Text} (ha : a ≠ []) (h : (lexeme (a ++ b)).2 = a.length) :
    lexeme a = lexeme (a ++ b) := by
  rcases startsMarkup_cases (a ++ b) with hs | hs | hs | hs
  · rw [lexeme_of_directive hs] at h ⊢
    have h2 := two_le_directiveLength hs
    have hin : startsDirective a = true := startsWith_of_append hs (h2.trans h.le)
    have hkind : directiveKind (a ++ b) = directiveKind a := by
      rcases Nat.lt_or_ge (directiveLength (a ++ b)) (a ++ b).length with hlt | hge
      · obtain ⟨n, hn, hlen⟩ := closing_of_lt hlt
        have hb := closing_bounds hn
        exact directiveKind_append b (by rw [← h]; simp only; omega)
      · have hb : b = [] := by
          rw [List.length_append] at hge
          exact List.length_eq_zero_iff.1 (by simp only at h; omega)
        rw [hb, List.append_nil]
    rw [lexeme_of_directive hin, hkind, directiveLength_append h.le]
  · rw [lexeme_of_htmlComment hs] at h ⊢
    have h4 := four_le_htmlCommentLength hs
    have hin : startsHtmlComment a = true := startsWith_of_append hs (h4.trans h.le)
    rw [lexeme_of_htmlComment hin, htmlCommentLength_append h.le]
  · rw [lexeme_of_tag hs] at h ⊢
    have hin := startsTag_of_append hs h.le
    have hdrop : (a ++ b).drop 1 = a.drop 1 ++ b :=
      List.drop_append_of_le_length (List.length_pos_iff.2 ha)
    have hsecond : (a ++ b)[1]? = a[1]? := by
      obtain ⟨c, r, -, rfl | rfl⟩ := startsTag_iff.1 hin <;> rfl
    rw [hdrop] at h ⊢
    have hle : tagLength 0 none (a.drop 1 ++ b) ≤ (a.drop 1).length := by
      rw [List.length_drop]
      simp only at h
      omega
    rw [lexeme_of_tag hin, hsecond, tagLength_append hle]
  · have hin : ¬startsMarkup a = true := fun hm ↦ hs (startsMarkup_append b hm)
    rw [lexeme_of_text hs] at h ⊢
    have hdrop : (a ++ b).drop 1 = a.drop 1 ++ b :=
      List.drop_append_of_le_length (List.length_pos_iff.2 ha)
    rw [hdrop] at h ⊢
    have hlen : (a.drop 1).length = a.length - 1 := List.length_drop
    simp only at h
    rw [lexeme_of_text hin, textLength_append (b := b) (by omega), hlen, h]
    simp only [Prod.mk.injEq, true_and]
    omega

end ViewForge.Erb
