import Mathlib.Data.List.TakeWhile
import ViewForge.Text.Entity

namespace ViewForge.Text

section Reading

variable {c : Char} {r s t : Text} {n : Nat}

theorem unescapeFrom_eq (k : Nat) (t : Text) : unescapeFrom k t = unescape (t.drop k) := by
  induction t generalizing k with
  | nil => cases k <;> rfl
  | cons c t ih =>
    cases k with
    | zero => rfl
    | succ k => exact ih k

theorem unescape_plain (h : c ≠ '&') : unescape (c :: r) = c :: unescape r := by
  rw [unescape, unescapeFrom, if_neg (by simpa using h)]
  rfl

theorem unescape_of_some (h : reference r = some (s, n)) :
    unescape ('&' :: r) = s ++ unescape (r.drop n) := by
  rw [← unescapeFrom_eq, unescape, unescapeFrom, h]
  rfl

theorem unescape_of_none (h : reference r = none) : unescape ('&' :: r) = '&' :: unescape r := by
  rw [unescape, unescapeFrom, h]
  rfl

theorem unescape_append_of_not_mem {a : Text} (h : '&' ∉ a) (b : Text) :
    unescape (a ++ b) = a ++ unescape b := by
  induction a with
  | nil => rfl
  | cons c a ih =>
    rw [List.mem_cons, not_or] at h
    rw [List.cons_append, unescape_plain (Ne.symm h.1), ih h.2, List.cons_append]

theorem namedReference_semicolon {name : Text} (hlength : name.length < 32)
    (hpart : ∀ a ∈ name, isEntityPart a = true) (hc : entity? bareEntities name = some s)
    (r : Text) : namedReference (name ++ ';' :: r) = some (s, name.length + 1) := by
  have htake : ((name ++ ';' :: r).take 32).takeWhile isEntityPart = name := by
    obtain ⟨k, hk⟩ : ∃ k, 32 = name.length + (k + 1) := ⟨31 - name.length, by omega⟩
    rw [hk, List.take_length_add_append, List.take_succ_cons, List.takeWhile_append_of_pos hpart,
      List.takeWhile_cons_of_neg (by decide), List.append_nil]
  simp [namedReference, htake, hc]

theorem reference_of_ne {a : Char} (h : a ≠ '#') (r : Text) :
    reference (a :: r) = namedReference (a :: r) := by
  rw [reference]
  · rintro s hs
    exact h (List.cons.inj hs).1
  · rintro s hs
    exact h (List.cons.inj hs).1
  · rintro s hs
    exact h (List.cons.inj hs).1

theorem unescape_named {a : Char} (name : Text) (hlength : (a :: name).length < 32)
    (hpart : ∀ b ∈ a :: name, isEntityPart b = true)
    (hc : entity? bareEntities (a :: name) = some [c]) (r : Text) :
    unescape ('&' :: a :: name ++ ';' :: r) = c :: unescape r := by
  have hne : a ≠ '#' := by
    rintro rfl
    exact absurd (hpart '#' List.mem_cons_self) (by decide)
  have href : reference (a :: name ++ ';' :: r) = some ([c], (a :: name).length + 1) := by
    rw [← namedReference_semicolon hlength hpart hc r, List.cons_append, reference_of_ne hne]
  have hdrop : (a :: name ++ ';' :: r).drop ((a :: name).length + 1) = r := by
    rw [List.drop_append]
    simp
  rw [List.cons_append, unescape_of_some href, hdrop]
  rfl

theorem unescape_escapeChar (c : Char) (r : Text) :
    unescape (escapeChar c ++ r) = c :: unescape r := by
  unfold escapeChar
  split
  next h =>
    rw [beq_iff_eq.1 h]
    exact unescape_named "mp" (by decide) (List.all_eq_true.1 (by decide)) (by decide) r
  next hamp =>
  split
  next h =>
    rw [beq_iff_eq.1 h]
    exact unescape_named "t" (by decide) (List.all_eq_true.1 (by decide)) (by decide) r
  split
  next h =>
    rw [beq_iff_eq.1 h]
    exact unescape_named "t" (by decide) (List.all_eq_true.1 (by decide)) (by decide) r
  · exact unescape_plain (by simpa using hamp)

theorem unescape_escapeAttributeChar (c : Char) (r : Text) :
    unescape (escapeAttributeChar c ++ r) = c :: unescape r := by
  unfold escapeAttributeChar
  split
  next h =>
    rw [beq_iff_eq.1 h]
    exact unescape_named "uot" (by decide) (List.all_eq_true.1 (by decide)) (by decide) r
  · exact unescape_escapeChar c r

theorem unescape_flatMap {f : Char → Text} (hf : ∀ c r, unescape (f c ++ r) = c :: unescape r)
    (t : Text) : unescape (t.flatMap f) = t := by
  induction t with
  | nil => rfl
  | cons c t ih => rw [List.flatMap_cons, hf, ih]

theorem unescape_escape (t : Text) : unescape (escape t) = t :=
  unescape_flatMap unescape_escapeChar t

theorem unescape_attributeText (t : Text) : unescape (attributeText t) = unescape t :=
  unescape_flatMap unescape_escapeAttributeChar (unescape t)

end Reading

section Backslash

variable {a : Text}

theorem takeWhile_append_stop {p : Char → Bool} {c : Char} (h : p c = false) (a b : Text) :
    (a ++ c :: b).takeWhile p = a.takeWhile p := by
  induction a with
  | nil => exact List.takeWhile_cons_of_neg (by simp [h])
  | cons d a ih => simp only [List.cons_append, List.takeWhile_cons, ih]

/-- A semicolon is looked for at places that the text reaches, or right behind it. -/
theorem semicolon_append_slash {k : Nat} (h : k ≤ a.length) (b : Text) :
    ((a ++ '\\' :: b)[k]? == some ';') = (a[k]? == some ';') := by
  rcases Nat.lt_or_eq_of_le h with hlt | rfl
  · rw [List.getElem?_append_left hlt]
  · rw [List.getElem?_append_right (Nat.le_refl _), Nat.sub_self,
      List.getElem?_eq_none (Nat.le_refl _)]
    rfl

theorem numericReference_append_slash (base skip : Nat) (a b : Text) :
    numericReference base skip (a ++ '\\' :: b) = numericReference base skip a := by
  have hstop : (if base == 16 then isHexDigit else isAsciiDigit) '\\' = false := by
    split <;> decide
  unfold numericReference
  simp only [takeWhile_append_stop hstop,
    semicolon_append_slash (List.takeWhile_prefix _).length_le b]

theorem entity?_of_slash (names : List (String × List Nat)) {name : Text} (h : '\\' ∈ name) :
    entity? names name = none := by
  rw [entity?, if_neg]
  rw [List.all_eq_true]
  intro hall
  exact absurd (hall '\\' h) (by decide)

/-- A name is looked for among the first characters only. -/
theorem longestEntity_congr {s t : Text} {n : Nat} (h : s.take n = t.take n) :
    longestEntity s n = longestEntity t n := by
  fun_induction longestEntity s n with
  | case1 => rfl
  | case2 => rfl
  | case3 n u hu => rw [longestEntity, ← h, hu]
  | case4 n hc ih =>
    have hshort : s.take (n + 1) = t.take (n + 1) := by
      have := congrArg (List.take (n + 1)) h
      rwa [List.take_take, List.take_take, Nat.min_eq_left (Nat.le_succ _)] at this
    rw [longestEntity, ← h, hc]
    exact ih hshort

theorem longestEntity_of_none {name : Text} {n : Nat}
    (h : entity? bareEntities (name.take (n + 1)) = none) :
    longestEntity name (n + 1) = longestEntity name n := by
  cases n with
  | zero => rfl
  | succ n => rw [longestEntity, h]

/-- No name of a reference goes over a backslash. -/
theorem longestEntity_append_slash (a b : Text) (k : Nat) :
    longestEntity (a ++ '\\' :: b) (a.length + k) = longestEntity a a.length := by
  induction k with
  | zero =>
    apply longestEntity_congr
    rw [Nat.add_zero, List.take_left, List.take_length]
  | succ k ih =>
    have hslash : '\\' ∈ (a ++ '\\' :: b).take (a.length + k + 1) := by
      rw [Nat.add_assoc, List.take_length_add_append]
      simp
    rw [← ih]
    exact longestEntity_of_none (entity?_of_slash bareEntities hslash)

theorem namedReference_append_slash (a b : Text) :
    namedReference (a ++ '\\' :: b) = namedReference a := by
  by_cases hlong : 32 ≤ a.length
  · have htake : (a ++ '\\' :: b).take 32 = a.take 32 := List.take_append_of_le_length hlong
    have hle : ((a.take 32).takeWhile isEntityPart).length ≤ a.length :=
      ((List.takeWhile_prefix _).trans (List.take_prefix _ _)).length_le
    simp only [namedReference, htake, semicolon_append_slash hle]
  · obtain ⟨k, hk⟩ : ∃ k, 32 = a.length + (k + 1) := ⟨31 - a.length, by omega⟩
    have htake : (a ++ '\\' :: b).take 32 = a ++ '\\' :: b.take k := by
      rw [hk, List.take_length_add_append, List.take_succ_cons]
    have hshort : a.take 32 = a := List.take_of_length_le (by omega)
    have hle : (a.takeWhile isEntityPart).length ≤ a.length := (List.takeWhile_prefix _).length_le
    by_cases hall : (a.takeWhile isEntityPart).length = a.length
    · -- The name found runs over the backslash, and only what stands before it can be a name.
      have hself : a.takeWhile isEntityPart = a := (List.takeWhile_prefix _).eq_of_length hall
      have hname : ((a ++ '\\' :: b).take 32).takeWhile isEntityPart =
          a ++ '\\' :: (b.take k).takeWhile isEntityPart := by
        rw [htake, List.takeWhile_append, if_pos hall, List.takeWhile_cons_of_pos (by decide)]
      have hfound := longestEntity_append_slash a ((b.take k).takeWhile isEntityPart)
        (((b.take k).takeWhile isEntityPart).length + 1)
      have hnone (names : List (String × List Nat)) :
          entity? names (a ++ '\\' :: (b.take k).takeWhile isEntityPart) = none :=
        entity?_of_slash names (by simp)
      simp only [namedReference, hname, hnone, Option.or_none, ite_self, List.length_append,
        List.length_cons, hfound, hshort, hself]
      rw [List.getElem?_eq_none (Nat.le_refl _)]
      rfl
    · have hname :
          ((a ++ '\\' :: b).take 32).takeWhile isEntityPart = a.takeWhile isEntityPart := by
        rw [htake, List.takeWhile_append, if_neg hall]
      simp only [namedReference, hname, hshort, semicolon_append_slash hle]

theorem reference_decimal {d : Char} (hx : d ≠ 'x') (hX : d ≠ 'X') (r : Text) :
    reference ('#' :: d :: r) = numericReference 10 1 (d :: r) := by
  rw [reference]
  · rintro s hs
    exact hx (List.cons.inj hs).1
  · rintro s hs
    exact hX (List.cons.inj hs).1

theorem reference_append_slash (a b : Text) : reference (a ++ '\\' :: b) = reference a := by
  cases a with
  | nil => exact (reference_of_ne (by decide) b).trans (namedReference_append_slash [] b)
  | cons c a =>
    by_cases hc : c = '#'
    · subst hc
      cases a with
      | nil => exact numericReference_append_slash 10 1 [] b
      | cons d a =>
        by_cases hx : d = 'x'
        · subst hx
          exact numericReference_append_slash 16 2 a b
        by_cases hX : d = 'X'
        · subst hX
          exact numericReference_append_slash 16 2 a b
        rw [List.cons_append, List.cons_append, reference_decimal hx hX, reference_decimal hx hX,
          ← List.cons_append, numericReference_append_slash]
    · rw [List.cons_append, reference_of_ne hc, reference_of_ne hc, ← List.cons_append,
        namedReference_append_slash]

theorem longestEntity_le {name s : Text} {n k : Nat} (h : longestEntity name n = some (s, k)) :
    k ≤ n := by
  fun_induction longestEntity name n with
  | case1 => cases h
  | case2 => cases h
  | case3 n c hc =>
    cases h
    exact Nat.le_refl _
  | case4 n hc ih => exact Nat.le_succ_of_le (ih h)

theorem numericReference_le {base skip n : Nat} {s : Text}
    (h : numericReference base skip a = some (s, n)) : n ≤ skip + a.length := by
  unfold numericReference at h
  dsimp only at h
  generalize hdigits : a.takeWhile (if base == 16 then isHexDigit else isAsciiDigit) = digits at h
  have hle : digits.length ≤ a.length := by
    rw [← hdigits]
    exact (List.takeWhile_prefix _).length_le
  split at h
  · cases h
  · cases h
    split
    next hsemicolon =>
      obtain ⟨hlt, -⟩ := List.getElem?_eq_some_iff.1 (beq_iff_eq.1 hsemicolon)
      omega
    next => omega

theorem namedReference_le {s : Text} {n : Nat} (h : namedReference a = some (s, n)) :
    n ≤ a.length := by
  unfold namedReference at h
  dsimp only at h
  have hle : ((a.take 32).takeWhile isEntityPart).length ≤ a.length :=
    ((List.takeWhile_prefix _).trans (List.take_prefix _ _)).length_le
  split at h
  next hsemicolon =>
    obtain ⟨hlt, -⟩ := List.getElem?_eq_some_iff.1 (beq_iff_eq.1 hsemicolon)
    split at h
    · cases h
      omega
    · exact (longestEntity_le h).trans hle
  next => exact (longestEntity_le h).trans hle

theorem reference_le {s : Text} {n : Nat} (h : reference a = some (s, n)) : n ≤ a.length := by
  unfold reference at h
  split at h
  · have hle := numericReference_le h
    simp only [List.length_cons]
    omega
  · have hle := numericReference_le h
    simp only [List.length_cons]
    omega
  · have hle := numericReference_le h
    simp only [List.length_cons]
    omega
  · exact namedReference_le h

theorem unescape_append_slash (a b : Text) :
    unescape (a ++ '\\' :: b) = unescape a ++ '\\' :: unescape b := by
  induction hn : a.length using Nat.strong_induction_on generalizing a with
  | _ n ih =>
    subst hn
    cases a with
    | nil => exact unescape_plain (by decide)
    | cons c a =>
      by_cases hc : c = '&'
      · subst hc
        cases hread : reference a with
        | none =>
          have hlong : reference (a ++ '\\' :: b) = none := by rw [reference_append_slash, hread]
          rw [List.cons_append, unescape_of_none hlong, unescape_of_none hread,
            ih a.length (Nat.lt_succ_self _) a rfl]
          rfl
        | some p =>
          obtain ⟨s, n⟩ := p
          have hlong : reference (a ++ '\\' :: b) = some (s, n) := by
            rw [reference_append_slash, hread]
          have hshorter : (a.drop n).length < a.length + 1 :=
            Nat.lt_succ_of_le (List.drop_suffix n a).length_le
          rw [List.cons_append, unescape_of_some hlong, unescape_of_some hread,
            List.drop_append_of_le_length (reference_le hread),
            ih (a.drop n).length hshorter (a.drop n) rfl, List.append_assoc]
      · rw [List.cons_append, unescape_plain hc, unescape_plain hc,
          ih a.length (Nat.lt_succ_self _) a rfl, List.cons_append]

/-- Reading references keeps every backslash. -/
theorem count_slash_le_unescape (t : Text) : t.count '\\' ≤ (unescape t).count '\\' := by
  induction hn : t.length using Nat.strong_induction_on generalizing t with
  | _ n ih =>
    subst hn
    by_cases hslash : '\\' ∈ t
    · obtain ⟨a, b, rfl⟩ := List.append_of_mem hslash
      have ha := ih a.length (by simp) a rfl
      have hb := ih b.length (by simp; omega) b rfl
      rw [unescape_append_slash, List.count_append, List.count_append, List.count_cons_self,
        List.count_cons_self]
      omega
    · rw [List.count_eq_zero_of_not_mem hslash]
      exact Nat.zero_le _

end Backslash

end ViewForge.Text
