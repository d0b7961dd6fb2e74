import Mathlib.Data.List.Basic
import ViewForge.Component.Build
import ViewForge.Proofs.Markup.Attributes
import ViewForge.Proofs.Project.Places

namespace ViewForge.Naming

open Text Erb Markup

section Letters

variable {c : Char}

/-- What holds of all ASCII characters can be looked up. -/
theorem ascii_induction {p : Char → Prop} (h : ∀ n : Fin 128, p (Char.ofNat n))
    (hc : c.toNat < 128) : p c := by
  have hp := h ⟨c.toNat, hc⟩
  rwa [Char.ofNat_toNat] at hp

theorem toNat_lt_of_isAsciiLetter (h : isAsciiLetter c = true) : c.toNat < 128 := by
  have hc := toNat_of_isAsciiLetter h
  omega

theorem isAsciiLetter_of_isAsciiUpper (h : isAsciiUpper c = true) : isAsciiLetter c = true := by
  rw [isAsciiLetter, h, Bool.true_or]

theorem isAsciiLetter_of_isAsciiLower (h : isAsciiLower c = true) : isAsciiLetter c = true := by
  rw [isAsciiLetter, h, Bool.or_true]

theorem isAsciiLower_lowerChar (h : isAsciiUpper c = true) : isAsciiLower (lowerChar c) = true :=
  ascii_induction (p := fun c ↦ isAsciiUpper c = true → isAsciiLower (lowerChar c) = true)
    (by decide) (toNat_lt_of_isAsciiLetter (isAsciiLetter_of_isAsciiUpper h)) h

theorem isAsciiUpper_upperChar (h : isAsciiLetter c = true) : isAsciiUpper (upperChar c) = true :=
  ascii_induction (p := fun c ↦ isAsciiLetter c = true → isAsciiUpper (upperChar c) = true)
    (by decide) (toNat_lt_of_isAsciiLetter h) h

theorem upperChar_lowerChar (h : isAsciiLetter c = true) :
    upperChar (lowerChar c) = upperChar c :=
  ascii_induction (p := fun c ↦ isAsciiLetter c = true → upperChar (lowerChar c) = upperChar c)
    (by decide) (toNat_lt_of_isAsciiLetter h) h

theorem lowerChar_upperChar (h : isAsciiLower c = true) : lowerChar (upperChar c) = c :=
  ascii_induction (p := fun c ↦ isAsciiLower c = true → lowerChar (upperChar c) = c)
    (by decide) (toNat_lt_of_isAsciiLetter (isAsciiLetter_of_isAsciiLower h)) h

theorem upperChar_of_isAsciiUpper (h : isAsciiUpper c = true) : upperChar c = c :=
  ascii_induction (p := fun c ↦ isAsciiUpper c = true → upperChar c = c)
    (by decide) (toNat_lt_of_isAsciiLetter (isAsciiLetter_of_isAsciiUpper h)) h

theorem not_isAsciiLower_of_isAsciiUpper (h : isAsciiUpper c = true) : isAsciiLower c = false :=
  ascii_induction (p := fun c ↦ isAsciiUpper c = true → isAsciiLower c = false)
    (by decide) (toNat_lt_of_isAsciiLetter (isAsciiLetter_of_isAsciiUpper h)) h

theorem lowerChar_of_not_isAsciiUpper (hc : c.toNat < 128) (h : isAsciiUpper c = false) :
    lowerChar c = c := by
  rw [lowerChar, h, if_neg Bool.false_ne_true, if_pos hc]

theorem capitalize_cons (h : isAsciiLetter c = true) (t : Text) :
    capitalize (c :: t) = upperChar c :: t := by
  have hletter : upperLetter c = [upperChar c] :=
    ascii_induction (p := fun c ↦ upperLetter c = [upperChar c]) (by decide +kernel)
      (toNat_lt_of_isAsciiLetter h)
  rw [capitalize, hletter, List.singleton_append]

def isSeparator (c : Char) : Bool := c == '-' || c == '_'

theorem not_isSeparator_of_isAsciiLetter (h : isAsciiLetter c = true) : isSeparator c = false := by
  rw [isSeparator, Bool.or_eq_false_iff, beq_eq_false_iff_ne, beq_eq_false_iff_ne]
  exact ⟨ne_of_class h (by decide), ne_of_class h (by decide)⟩

end Letters

section Camel

/-- Nothing happens to a character unless it is a separator before a small letter. -/
theorem camelCase_cons {c : Char} {t : Text}
    (h : isSeparator c = true → ∀ d ∈ t.head?, isAsciiLower d = false) :
    camelCase (c :: t) = c :: camelCase t := by
  cases t with
  | nil => rfl
  | cons d t =>
    have hkept : ((c == '-' || c == '_') && isAsciiLower d) = false := by
      cases hc : isSeparator c with
      | true => rw [h hc d rfl, Bool.and_false]
      | false =>
        rw [isSeparator] at hc
        rw [hc, Bool.false_and]
    rw [camelCase, hkept, if_neg Bool.false_ne_true]

theorem camelCase_cons_of_not_isSeparator {c : Char} (h : isSeparator c = false) (t : Text) :
    camelCase (c :: t) = c :: camelCase t :=
  camelCase_cons fun hc ↦ by rw [h] at hc; cases hc

theorem camelCase_separator {c d : Char} (hc : isSeparator c = true) (hd : isAsciiLower d = true)
    (t : Text) : camelCase (c :: d :: t) = upperChar d :: camelCase t := by
  rw [isSeparator] at hc
  rw [camelCase, hc, hd]
  rfl

theorem camelCase_of_not_isSeparator {t : Text} (h : ∀ c ∈ t, isSeparator c = false) :
    camelCase t = t := by
  induction t with
  | nil => rfl
  | cons c t ih =>
    rw [List.forall_mem_cons] at h
    rw [camelCase_cons_of_not_isSeparator h.1, ih h.2]

/-- The cases of a text: a separator before a small letter, or a character that stays. -/
theorem camel_induction {motive : Text → Prop} (nil : motive [])
    (capital : ∀ c d t, isSeparator c = true → isAsciiLower d = true → motive t →
      motive (c :: d :: t))
    (kept : ∀ c t, (isSeparator c = true → ∀ d ∈ t.head?, isAsciiLower d = false) → motive t →
      motive (c :: t)) (t : Text) : motive t := by
  fun_induction camelCase t with
  | case1 => exact nil
  | case2 c => exact kept c [] (fun _ d hd ↦ nomatch hd) nil
  | case3 c d t h ih =>
    rw [Bool.and_eq_true] at h
    exact capital c d t h.1 h.2 ih
  | case4 c d t h ih =>
    refine kept c (d :: t) (fun hc e he ↦ ?_) ih
    cases Option.some.inj he
    rw [isSeparator] at hc
    simpa only [hc, Bool.true_and, Bool.not_eq_true] using h

/-- What a text in camel case begins with is no small letter, unless the text begins so. -/
theorem head?_camelCase {t : Text} (h : ∀ d ∈ t.head?, isAsciiLower d = false) :
    ∀ d ∈ (camelCase t).head?, isAsciiLower d = false := by
  induction t using camel_induction with
  | nil => exact h
  | capital c d t hc hd _ =>
    rw [camelCase_separator hc hd]
    rintro e he
    cases Option.some.inj he
    exact not_isAsciiLower_of_isAsciiUpper
      (isAsciiUpper_upperChar (isAsciiLetter_of_isAsciiLower hd))
  | kept c t hc _ =>
    rw [camelCase_cons hc]
    exact h

theorem camelCase_camelCase (t : Text) : camelCase (camelCase t) = camelCase t := by
  induction t using camel_induction with
  | nil => rfl
  | capital c d t hc hd ih =>
    have hupper := isAsciiUpper_upperChar (isAsciiLetter_of_isAsciiLower hd)
    rw [camelCase_separator hc hd, camelCase_cons_of_not_isSeparator
      (not_isSeparator_of_isAsciiLetter (isAsciiLetter_of_isAsciiUpper hupper)), ih]
  | kept c t hc ih =>
    rw [camelCase_cons hc, camelCase_cons fun hs ↦ head?_camelCase (hc hs), ih]

theorem camelCase_append_separator (t : Text) {c d : Char} (hc : isSeparator c = true)
    (hd : isAsciiLower d = true) (u : Text) :
    camelCase (t ++ c :: d :: u) = camelCase t ++ upperChar d :: camelCase u := by
  have hlower : isAsciiLower c = false := by
    rw [isSeparator, Bool.or_eq_true, beq_iff_eq, beq_iff_eq] at hc
    rcases hc with rfl | rfl <;> decide
  induction t using camel_induction with
  | nil => exact camelCase_separator hc hd u
  | capital c' d' t hc' hd' ih =>
    rw [List.cons_append, List.cons_append, camelCase_separator hc' hd', ih,
      camelCase_separator hc' hd', List.cons_append]
  | kept c' t hc' ih =>
    have hkept : isSeparator c' = true →
        ∀ e ∈ (t ++ c :: d :: u).head?, isAsciiLower e = false := by
      intro hs e he
      cases t with
      | nil =>
        cases Option.some.inj he
        exact hlower
      | cons f t => exact hc' hs e he
    rw [List.cons_append, camelCase_cons hkept, ih, camelCase_cons hc', List.cons_append]

end Camel

section Snake

def spaced (c : Char) : Text := if isAsciiUpper c then ['_', lowerChar c] else [c]

/-- Camel case takes back what snake case does. -/
theorem camelCase_flatMap_spaced (t : Text) : camelCase (t.flatMap spaced) = camelCase t := by
  have hunder : isSeparator '_' = true := rfl
  induction t using camel_induction with
  | nil => rfl
  | capital c d t hc hd ih =>
    have hcu : isAsciiUpper c = false := by
      rw [isSeparator, Bool.or_eq_true, beq_iff_eq, beq_iff_eq] at hc
      rcases hc with rfl | rfl <;> decide
    have hdu : isAsciiUpper d = false := by
      rw [← Bool.not_eq_true]
      intro hu
      rw [not_isAsciiLower_of_isAsciiUpper hu] at hd
      cases hd
    rw [List.flatMap_cons, List.flatMap_cons, spaced, spaced, hcu, hdu]
    rw [camelCase_separator hc hd, ← ih]
    exact camelCase_separator hc hd _
  | kept c t hc ih =>
    rw [camelCase_cons hc, ← ih, List.flatMap_cons]
    cases hu : isAsciiUpper c with
    | true =>
      have hback := upperChar_lowerChar (isAsciiLetter_of_isAsciiUpper hu)
      rw [spaced, hu, if_pos rfl]
      change camelCase ('_' :: lowerChar c :: t.flatMap spaced) = _
      rw [camelCase_separator hunder (isAsciiLower_lowerChar hu), hback,
        upperChar_of_isAsciiUpper hu]
    | false =>
      rw [spaced, hu, if_neg Bool.false_ne_true]
      refine camelCase_cons fun hs e he ↦ ?_
      cases t with
      | nil => cases he
      | cons d t =>
        rw [List.flatMap_cons, spaced] at he
        split at he
        · cases Option.some.inj he
          decide
        · cases Option.some.inj he
          exact hc hs _ rfl

end Snake

section Name

def isNameCharacter (c : Char) : Bool := isAsciiLetter c || isAsciiDigit c || c == '_'

def isName : Text → Bool
  | [] => false
  | c :: r => isAsciiLetter c && r.all isNameCharacter

def isPascalName : Text → Bool
  | [] => false
  | c :: r => isAsciiUpper c && r.all fun d ↦ isAsciiLetter d || isAsciiDigit d

def isSmallWord : Text → Bool
  | [] => false
  | c :: r => isAsciiLower c && r.all fun d ↦ isAsciiLower d || isAsciiDigit d

def isSnakeName (t : Text) : Bool := (splitOn '_' t).all isSmallWord

variable {c : Char} {r t : Text}

theorem isMarkupNamePart_of_isNameCharacter (h : isNameCharacter c = true) :
    isMarkupNamePart c = true := by
  rw [isNameCharacter, Bool.or_eq_true, Bool.or_eq_true] at h
  rcases h with (h | h) | h <;> simp [isMarkupNamePart, h]

theorem isNameCharacter_of_isAsciiLetter (h : isAsciiLetter c = true) :
    isNameCharacter c = true := by
  rw [isNameCharacter, h, Bool.true_or, Bool.true_or]

theorem all_isNameCharacter_of_isName (h : isName t = true) : t.all isNameCharacter = true := by
  cases t with
  | nil => rfl
  | cons c r =>
    rw [isName, Bool.and_eq_true] at h
    rw [List.all_cons, isNameCharacter_of_isAsciiLetter h.1, h.2, Bool.and_true]

theorem map_lowerChar_spaced (h : isNameCharacter c = true) :
    (if isAsciiUpper c then ['_', c] else [c]).map lowerChar = spaced c := by
  have hlt : c.toNat < 128 := by
    have hc := toNat_of_isMarkupNamePart (isMarkupNamePart_of_isNameCharacter h)
    omega
  rw [spaced]
  cases hu : isAsciiUpper c with
  | true => rfl
  | false => exact congrArg ([·]) (lowerChar_of_not_isAsciiUpper hlt hu)

/-- The first letter of a name becomes small, and no underscore stands before it. -/
theorem snakeCase_cons (hc : isAsciiLetter c = true) (hr : r.all isNameCharacter = true) :
    snakeCase (c :: r) = lowerChar c :: r.flatMap spaced := by
  let split : Char → Text := fun d ↦ if isAsciiUpper d then ['_', d] else [d]
  have hstart : ((c :: r).flatMap split).dropWhile (· == '_') = c :: r.flatMap split := by
    have hne : (c == '_') = false := beq_eq_false_iff_ne.2 (ne_of_class hc (by decide))
    rw [List.flatMap_cons]
    change ((if isAsciiUpper c then ['_', c] else [c]) ++ _).dropWhile _ = _
    split <;> simp [List.dropWhile, hne]
  have hall : (c :: r.flatMap split).all isMarkupNamePart = true := by
    rw [List.all_cons, List.all_flatMap, Bool.and_eq_true, List.all_eq_true]
    refine ⟨isMarkupNamePart_of_isNameCharacter (isNameCharacter_of_isAsciiLetter hc), ?_⟩
    intro d hd
    have hpart := isMarkupNamePart_of_isNameCharacter (List.all_eq_true.1 hr d hd)
    change (if isAsciiUpper d then ['_', d] else [d]).all isMarkupNamePart = true
    split <;> simp [hpart]
    rfl
  change lower (((c :: r).flatMap split).dropWhile (· == '_')) = _
  rw [hstart, lower_eq_map hall, List.map_cons, List.map_flatMap]
  congr 1
  refine List.flatMap_congr fun d hd ↦ ?_
  exact map_lowerChar_spaced (List.all_eq_true.1 hr d hd)

theorem pascalCase_cons (hc : isAsciiLetter c = true) (r : Text) :
    pascalCase (c :: r) = upperChar c :: camelCase r := by
  rw [pascalCase, camelCase_cons_of_not_isSeparator (not_isSeparator_of_isAsciiLetter hc),
    capitalize_cons hc]

/-- A name and its snake case have one Pascal case. -/
theorem pascalCase_snakeCase (h : isName t = true) :
    pascalCase (snakeCase t) = pascalCase t := by
  cases t with
  | nil => cases h
  | cons c r =>
    rw [isName, Bool.and_eq_true] at h
    obtain ⟨hc, hr⟩ := h
    rw [snakeCase_cons hc hr, pascalCase_cons (isAsciiLetter_lowerChar hc), pascalCase_cons hc,
      upperChar_lowerChar hc, camelCase_flatMap_spaced]

theorem isName_of_isPascalName (h : isPascalName t = true) : isName t = true := by
  cases t with
  | nil => cases h
  | cons c r =>
    rw [isPascalName, Bool.and_eq_true, List.all_eq_true] at h
    rw [isName, isAsciiLetter_of_isAsciiUpper h.1, Bool.true_and, List.all_eq_true]
    intro d hd
    rw [isNameCharacter, h.2 d hd, Bool.true_or]

theorem pascalCase_of_isPascalName (h : isPascalName t = true) : pascalCase t = t := by
  cases t with
  | nil => cases h
  | cons c r =>
    rw [isPascalName, Bool.and_eq_true, List.all_eq_true] at h
    obtain ⟨hc, hr⟩ := h
    have hplain : ∀ d ∈ r, isSeparator d = false := by
      intro d hd
      have hclass := hr d hd
      rw [isSeparator, Bool.or_eq_false_iff, beq_eq_false_iff_ne, beq_eq_false_iff_ne]
      constructor <;> rintro rfl <;> exact absurd hclass (by decide)
    rw [pascalCase_cons (isAsciiLetter_of_isAsciiUpper hc), upperChar_of_isAsciiUpper hc,
      camelCase_of_not_isSeparator hplain]

theorem pascalCase_pascalCase (h : isName t = true) :
    pascalCase (pascalCase t) = pascalCase t := by
  cases t with
  | nil => cases h
  | cons c r =>
    rw [isName, Bool.and_eq_true] at h
    have hupper := isAsciiUpper_upperChar h.1
    rw [pascalCase_cons h.1, pascalCase_cons (isAsciiLetter_of_isAsciiUpper hupper),
      upperChar_of_isAsciiUpper hupper, camelCase_camelCase]

theorem all_isNameCharacter_camelCase (h : r.all isNameCharacter = true) :
    (camelCase r).all isNameCharacter = true := by
  induction r using camel_induction with
  | nil => rfl
  | capital c d r hc hd ih =>
    rw [List.all_cons, List.all_cons, Bool.and_eq_true, Bool.and_eq_true] at h
    have hupper := isAsciiUpper_upperChar (isAsciiLetter_of_isAsciiLower hd)
    rw [camelCase_separator hc hd, List.all_cons, ih h.2.2, isNameCharacter_of_isAsciiLetter
      (isAsciiLetter_of_isAsciiUpper hupper), Bool.and_true]
  | kept c r hc ih =>
    rw [List.all_cons, Bool.and_eq_true] at h
    rw [camelCase_cons hc, List.all_cons, h.1, ih h.2, Bool.and_true]

theorem isName_pascalCase (h : isName t = true) : isName (pascalCase t) = true := by
  cases t with
  | nil => cases h
  | cons c r =>
    rw [isName, Bool.and_eq_true] at h
    rw [pascalCase_cons h.1, isName,
      isAsciiLetter_of_isAsciiUpper (isAsciiUpper_upperChar h.1),
      all_isNameCharacter_camelCase h.2, Bool.and_true]

theorem isName_snakeCase (h : isName t = true) : isName (snakeCase t) = true := by
  cases t with
  | nil => cases h
  | cons c r =>
    rw [isName, Bool.and_eq_true] at h
    rw [snakeCase_cons h.1 h.2, isName, isAsciiLetter_lowerChar h.1, Bool.true_and,
      List.all_flatMap, List.all_eq_true]
    intro d hd
    have hpart := List.all_eq_true.1 h.2 d hd
    rw [spaced]
    split
    next hu =>
      have hlower := isAsciiLetter_of_isAsciiLower (isAsciiLower_lowerChar hu)
      rw [List.all_cons, List.all_cons, isNameCharacter_of_isAsciiLetter hlower]
      rfl
    next => rw [List.all_cons, hpart, List.all_nil, Bool.and_true]

theorem splitOn_cons_of_ne {sep : Char} (h : c ≠ sep) (r : Text) :
    ∃ w ws, splitOn sep r = w :: ws ∧ w <+: r ∧ splitOn sep (c :: r) = (c :: w) :: ws := by
  obtain ⟨w, ws, hsplit, hprefix, -⟩ := exists_splitBy_eq_cons (· == sep) r
  refine ⟨w, ws, hsplit, hprefix, ?_⟩
  rw [splitOn, splitBy, hsplit]
  simp [h]

/-- Snake case takes back what camel case does to a text that goes on with small letters and digits
and, behind each underscore, with a small word. -/
theorem flatMap_spaced_camelCase {w : Text} {ws : List Text} (h : splitOn '_' r = w :: ws)
    (hw : w.all (fun d ↦ isAsciiLower d || isAsciiDigit d) = true)
    (hws : ws.all isSmallWord = true) : (camelCase r).flatMap spaced = r := by
  induction r using camel_induction generalizing w ws with
  | nil => rfl
  | capital c d r hc hd ih =>
    by_cases hline : c = '_'
    · subst hline
      have hd' : d ≠ '_' := ne_of_class hd (by decide)
      obtain ⟨w', ws', hr, -, hsplit⟩ := splitOn_cons_of_ne hd' r
      have hsplit' : splitOn '_' ('_' :: d :: r) = [] :: splitOn '_' (d :: r) :=
        splitBy_append_cons (a := []) (d :: r) nofun rfl
      rw [hsplit', hsplit, List.cons.injEq] at h
      obtain ⟨-, rfl⟩ := h
      rw [List.all_cons, Bool.and_eq_true, isSmallWord, Bool.and_eq_true] at hws
      have hupper := isAsciiUpper_upperChar (isAsciiLetter_of_isAsciiLower hd)
      rw [camelCase_separator hc hd, List.flatMap_cons, ih hr hws.1.2 hws.2, spaced, hupper,
        if_pos rfl, lowerChar_upperChar hd]
      rfl
    · obtain ⟨w', ws', -, -, hsplit⟩ := splitOn_cons_of_ne hline (d :: r)
      rw [hsplit, List.cons.injEq] at h
      obtain ⟨rfl, -⟩ := h
      rw [isSeparator, Bool.or_eq_true, beq_iff_eq, beq_iff_eq] at hc
      rw [hc.resolve_right hline, List.all_cons, Bool.and_eq_true] at hw
      exact absurd hw.1 (by decide)
  | kept c r hc ih =>
    by_cases hline : c = '_'
    · subst hline
      have hsplit : splitOn '_' ('_' :: r) = [] :: splitOn '_' r :=
        splitBy_append_cons (a := []) r nofun rfl
      rw [hsplit, List.cons.injEq] at h
      obtain ⟨-, rfl⟩ := h
      obtain ⟨w', ws', hr, hprefix, -⟩ := exists_splitBy_eq_cons (· == '_') r
      rw [splitOn, hr, List.all_cons, Bool.and_eq_true] at hws
      cases w' with
      | nil => cases hws.1
      | cons d w' =>
        obtain ⟨u, rfl⟩ := hprefix
        rw [isSmallWord, Bool.and_eq_true, hc rfl d rfl] at hws
        cases hws.1.1
    · obtain ⟨w', ws', hr, -, hsplit⟩ := splitOn_cons_of_ne hline r
      rw [hsplit, List.cons.injEq] at h
      obtain ⟨rfl, rfl⟩ := h
      rw [List.all_cons, Bool.and_eq_true] at hw
      have hu : isAsciiUpper c = false := by
        rw [← Bool.not_eq_true]
        intro hu
        have hdigit : isAsciiDigit c = false :=
          ascii_induction (p := fun c ↦ isAsciiUpper c = true → isAsciiDigit c = false)
            (by decide) (toNat_lt_of_isAsciiLetter (isAsciiLetter_of_isAsciiUpper hu)) hu
        rw [not_isAsciiLower_of_isAsciiUpper hu, hdigit] at hw
        cases hw.1
      rw [camelCase_cons hc, List.flatMap_cons, ih hr hw.2 hws, spaced, hu,
        if_neg Bool.false_ne_true]
      rfl

theorem all_of_splitOn {sep : Char} {p : Char → Bool} (hsep : p sep = true)
    (h : ∀ w ∈ splitOn sep t, w.all p = true) : t.all p = true := by
  induction t with
  | nil => rfl
  | cons c t ih =>
    by_cases hc : c = sep
    · subst hc
      have hsplit : splitOn c (c :: t) = [] :: splitOn c t :=
        splitBy_append_cons (a := []) t nofun (beq_self_eq_true c)
      rw [hsplit, List.forall_mem_cons] at h
      rw [List.all_cons, hsep, ih h.2, Bool.and_true]
    · obtain ⟨w, ws, ht, -, hsplit⟩ := splitOn_cons_of_ne hc t
      rw [hsplit, List.forall_mem_cons, List.all_cons, Bool.and_eq_true] at h
      rw [ht, List.forall_mem_cons] at ih
      rw [List.all_cons, h.1.1, ih ⟨h.1.2, h.2⟩, Bool.and_true]

theorem all_isNameCharacter_of_isSmallWord (h : isSmallWord t = true) :
    t.all isNameCharacter = true := by
  cases t with
  | nil => rfl
  | cons c r =>
    rw [isSmallWord, Bool.and_eq_true, List.all_eq_true] at h
    rw [List.all_cons, Bool.and_eq_true, List.all_eq_true]
    refine ⟨isNameCharacter_of_isAsciiLetter (isAsciiLetter_of_isAsciiLower h.1), fun d hd ↦ ?_⟩
    have hd := h.2 d hd
    rw [Bool.or_eq_true] at hd
    rcases hd with hd | hd
    · exact isNameCharacter_of_isAsciiLetter (isAsciiLetter_of_isAsciiLower hd)
    · rw [isNameCharacter, hd, Bool.or_true, Bool.true_or]

/-- Snake case is found again from its Pascal case. -/
theorem snakeCase_pascalCase (h : isSnakeName t = true) : snakeCase (pascalCase t) = t := by
  have hall : t.all isNameCharacter = true := all_of_splitOn (by decide) fun w hw ↦
    all_isNameCharacter_of_isSmallWord (List.all_eq_true.1 h w hw)
  cases t with
  | nil => cases h
  | cons c r =>
    have hline : c ≠ '_' := by
      rintro rfl
      have hsplit : splitOn '_' ('_' :: r) = [] :: splitOn '_' r :=
        splitBy_append_cons (a := []) r nofun rfl
      rw [isSnakeName, hsplit] at h
      cases h
    obtain ⟨w, ws, hr, -, hsplit⟩ := splitOn_cons_of_ne hline r
    rw [isSnakeName, hsplit, List.all_cons, Bool.and_eq_true, isSmallWord, Bool.and_eq_true] at h
    obtain ⟨⟨hc, hw⟩, hws⟩ := h
    rw [List.all_cons, Bool.and_eq_true] at hall
    have hupper := isAsciiUpper_upperChar (isAsciiLetter_of_isAsciiLower hc)
    rw [pascalCase_cons (isAsciiLetter_of_isAsciiLower hc), snakeCase_cons
      (isAsciiLetter_of_isAsciiUpper hupper) (all_isNameCharacter_camelCase hall.2),
      lowerChar_upperChar hc, flatMap_spaced_camelCase hr hw hws]

end Name

section Namespace

def IsSegment (t : Text) : Prop := t ≠ [] ∧ ':' ∉ t ∧ '/' ∉ t

theorem isSegment_of_isName {t : Text} (h : isName t = true) : IsSegment t := by
  have hall := List.all_eq_true.1 (all_isNameCharacter_of_isName h)
  refine ⟨?_, fun hc ↦ ?_, fun hc ↦ ?_⟩
  · rintro rfl
    cases h
  · exact absurd (hall _ hc) (by decide)
  · exact absurd (hall _ hc) (by decide)

theorem segmentsFrom_ne_nil (t : Text) : segmentsFrom t ≠ [] := by
  fun_cases segmentsFrom t <;> simp

theorem segmentsFrom_slash (t : Text) : segmentsFrom ('/' :: t) = [] :: segmentsFrom t := by
  obtain ⟨w, ws, h⟩ := List.exists_cons_of_ne_nil (segmentsFrom_ne_nil t)
  rw [segmentsFrom, h]
  · rfl
  · exact nofun

/-- The first segment ends where a separator, or nothing, follows. -/
theorem segmentsFrom_append {t u : Text} {ws : List Text} (hcolon : ':' ∉ t) (hslash : '/' ∉ t)
    (h : segmentsFrom u = [] :: ws) : segmentsFrom (t ++ u) = t :: ws := by
  induction t with
  | nil => exact h
  | cons c t ih =>
    rw [List.mem_cons, not_or] at hcolon hslash
    rw [List.cons_append, segmentsFrom, ih hcolon.2 hslash.2]
    · simp [Ne.symm hslash.1]
    · rintro r rfl
      exact absurd rfl hcolon.1

/-- Segments are read back from a path that is put together with one of the separators. -/
theorem segments_join {sep : Text} (hsep : ∀ t, segmentsFrom (sep ++ t) = [] :: segmentsFrom t)
    {ts : List Text} (h : ∀ t ∈ ts, IsSegment t) : segments (join sep ts) = ts := by
  have hkept : ts.filter (!·.isEmpty) = ts := by
    rw [List.filter_eq_self]
    intro t ht
    simpa using (h t ht).1
  cases ts with
  | nil => rfl
  | cons t ts =>
    suffices hfrom : segmentsFrom (join sep (t :: ts)) = t :: ts by rw [segments, hfrom, hkept]
    clear hkept
    induction ts generalizing t with
    | nil =>
      rw [List.forall_mem_singleton] at h
      rw [join, List.intercalate_singleton]
      have hend := segmentsFrom_append (u := []) h.2.1 h.2.2 rfl
      rwa [List.append_nil] at hend
    | cons t' ts ih =>
      rw [List.forall_mem_cons] at h
      rw [join, List.intercalate_cons_cons, List.append_assoc]
      refine segmentsFrom_append h.1.2.1 h.1.2.2 ?_
      rw [hsep]
      exact congrArg _ (ih t' h.2)

theorem splitOnText_join {c : Char} {sep : Text} {ts : List Text} (h : ∀ t ∈ ts, c ∉ t)
    (hne : ts ≠ []) : splitOnText (c :: sep) (join (c :: sep) ts) = ts := by
  cases ts with
  | nil => cases hne rfl
  | cons t ts =>
    induction ts generalizing t with
    | nil =>
      rw [join, List.intercalate_singleton]
      exact splitOnText_of_not_mem sep (h t List.mem_cons_self)
    | cons t' ts ih =>
      rw [List.forall_mem_cons] at h
      rw [join, List.intercalate_cons_cons, splitOnText_append sep h.1]
      exact congrArg _ (ih t' h.2 (List.cons_ne_nil _ _))

def IsNamespace (path : Text) : Prop := ∀ t ∈ segments path, isName t = true

variable {path : Text}

theorem segments_constantPath (h : IsNamespace path) :
    segments (constantPath path) = (segments path).map pascalCase := by
  refine segments_join (fun t ↦ rfl) (List.forall_mem_map.2 fun t ht ↦ ?_)
  exact isSegment_of_isName (isName_pascalCase (h t ht))

/-- The constant path of a namespace is its own. -/
theorem constantPath_constantPath (h : IsNamespace path) :
    constantPath (constantPath path) = constantPath path := by
  rw [constantPath, segments_constantPath h, List.map_map, constantPath]
  congr 1
  refine List.map_congr_left fun t ht ↦ ?_
  exact pascalCase_pascalCase (h t ht)

theorem segments_directory (h : IsNamespace path) :
    segments (directory path) = (segments path).map (snakeCase ∘ pascalCase) := by
  by_cases hnil : segments path = []
  · rw [directory, moduleNames, constantPath, hnil]
    rfl
  · have hsplit : moduleNames path = (segments path).map pascalCase := by
      refine splitOnText_join (List.forall_mem_map.2 fun t ht ↦ ?_) (by simpa using hnil)
      exact (isSegment_of_isName (isName_pascalCase (h t ht))).2.1
    rw [directory, hsplit, List.map_map]
    refine segments_join segmentsFrom_slash (List.forall_mem_map.2 fun t ht ↦ ?_)
    exact isSegment_of_isName (isName_snakeCase (isName_pascalCase (h t ht)))

/-- The constants of a namespace are found again from its directory. -/
theorem constantPath_directory (h : IsNamespace path) :
    constantPath (directory path) = constantPath path := by
  rw [constantPath, segments_directory h, List.map_map, constantPath]
  congr 1
  refine List.map_congr_left fun t ht ↦ ?_
  have hname := h t ht
  exact (pascalCase_snakeCase (isName_pascalCase hname)).trans (pascalCase_pascalCase hname)

end Namespace

section File

open Project

/-- The file of a class is called after the class, with an ending that says what it holds. -/
theorem stem_artifactPath_component {snakeName : Text} (h : '/' ∉ snakeName) (namespaceName : Text)
    (dest root : Path) :
    (artifactPath snakeName namespaceName dest root .component).stem =
      snakeName ++ "_component" := by
  have hslash : ∀ c ∈ snakeName ++ ("_component.rb" : Text), (c == '/') = false := by
    intro c hc
    rw [beq_eq_false_iff_ne]
    rintro rfl
    rcases List.mem_append.1 hc with hc | hc
    · exact h hc
    · exact absurd hc (by decide)
  have hkept : isSegment (snakeName ++ ("_component.rb" : Text)) = true := by
    rw [isSegment_iff]
    constructor <;> intro heq <;> have hlen := congrArg List.length heq <;> simp at hlen
  obtain ⟨init, hentry⟩ := (dest.entry (directory namespaceName)).entry_segments
    (snakeName ++ ("_component.rb" : Text))
  rw [Path.ofText_segments, splitOn, splitBy_of_none hslash, List.filter_cons_of_pos hkept,
    List.filter_nil] at hentry
  have hname : (artifactPath snakeName namespaceName dest root .component).name =
      snakeName ++ ("_component.rb" : Text) := by
    change List.getLastD ((dest.entry (directory namespaceName)).entry _).segments [] = _
    rw [hentry, List.getLastD_concat]
  have htail : ((snakeName ++ ("_component.rb" : Text)).reverse.takeWhile (· != '.')).reverse =
      ("rb" : Text) := by
    rw [List.reverse_append]
    rfl
  rw [Path.stem, hname, Path.splitName, htail]
  simp [List.take_length_add_append]

theorem pascalCase_append_component {t : Text} (h : isName t = true) :
    pascalCase (t ++ "_component") = pascalCase t ++ "Component" := by
  cases t with
  | nil => cases h
  | cons c r =>
    rw [isName, Bool.and_eq_true] at h
    rw [List.cons_append, pascalCase_cons h.1, pascalCase_cons h.1, List.cons_append]
    exact congrArg _ (camelCase_append_separator r rfl rfl _)

end File

/-- The spellings of a name agree. Pascal case undoes snake case, and snake case Pascal case; the
constant of a class is the Pascal case of what its file is called; the constant path of a namespace
is its own and is found again from the directory, so no two share one. -/
theorem spellings_agree :
    (∀ name, isName name = true → pascalCase (snakeCase name) = pascalCase name) ∧
    (∀ name, isPascalName name = true → pascalCase (snakeCase name) = name) ∧
    (∀ name, isSnakeName name = true → snakeCase (pascalCase name) = name) ∧
    (∀ withSlots (d : Definition) namespaceName dest root, isName d.name = true →
      let c := Component.ofDefinition withSlots d
      pascalCase (Project.artifactPath c.snakeName namespaceName dest root .component).stem =
        c.className) ∧
    (∀ path, IsNamespace path → constantPath (constantPath path) = constantPath path ∧
      constantPath (directory path) = constantPath path) ∧
    ∀ path path', IsNamespace path → IsNamespace path' → constantPath path ≠ constantPath path' →
      directory path ≠ directory path' := by
  refine ⟨fun name ↦ pascalCase_snakeCase, fun name h ↦ ?_, fun name ↦ snakeCase_pascalCase, ?_,
    fun path h ↦ ⟨constantPath_constantPath h, constantPath_directory h⟩, ?_⟩
  · rw [pascalCase_snakeCase (isName_of_isPascalName h), pascalCase_of_isPascalName h]
  · intro withSlots d namespaceName dest root h c
    have hsnake := isName_snakeCase h
    rw [show c.snakeName = snakeCase d.name from rfl,
      stem_artifactPath_component (isSegment_of_isName hsnake).2.2,
      pascalCase_append_component hsnake, pascalCase_snakeCase h]
    rfl
  · intro path path' h h' hne heq
    apply hne
    rw [← constantPath_directory h, heq, constantPath_directory h']

theorem spellings_agree_formFields :
    isName "HTML__form_Field2_" = true ∧
    pascalCase (snakeCase "HTML__form_Field2_") = pascalCase "HTML__form_Field2_" ∧
    pascalCase (snakeCase "HTMLButton") = "HTMLButton" ∧
    snakeCase (pascalCase "form_fields2_x") = "form_fields2_x" ∧
    constantPath (directory "admin::Form_fields//ui/") = "Admin::FormFields::Ui" ∧
    directory "admin/uI" ≠ directory "admin/ui" := by
  obtain ⟨hname, hpascal, hsnake, -, hpath, hdistinct⟩ := spellings_agree
  have hnested : IsNamespace "admin::Form_fields//ui/" := by
    unfold IsNamespace
    decide
  refine ⟨by decide, hname _ (by decide), hpascal _ (by decide), hsnake _ (by decide),
    (hpath _ hnested).2.trans (by decide), hdistinct _ _ ?_ ?_ (by decide)⟩
  all_goals
    unfold IsNamespace
    decide

end ViewForge.Naming
