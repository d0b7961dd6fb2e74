import ViewForge.Proofs.Script.Strings
import ViewForge.Proofs.Text.Splitting

namespace ViewForge.Script

open Text

section Replacing

def unescapeBy (f : Char → Option Char) : Text → Text
  | [] => []
  | ['\\'] => ['\\']
  | '\\' :: c :: r =>
    match f c with
    | some d => d :: unescapeBy f r
    | none => '\\' :: unescapeBy f (c :: r)
  | c :: r => c :: unescapeBy f r

/-- Replacing the escapes of some characters finds the meaning of a text: they are all its escapes,
but for a backslash that is doubled before a character whose own escape would be itself. -/
def isMeantBy (f : Char → Option Char) : Text → Bool
  | [] => true
  | ['\\'] => false
  | '\\' :: '\\' :: c :: r => f c == some c && isMeantBy f r
  | '\\' :: c :: r => (f c).isSome && isMeantBy f r
  | c :: r => c != '\r' && isMeantBy f r

variable {f g : Char → Option Char} {c d : Char} {r t : Text}

theorem ne_slash_of (hlast : c = '\\' → r = [] → False)
    (hpair : ∀ d s, c = '\\' → r = d :: s → False) : c ≠ '\\' := by
  intro hc
  cases r with
  | nil => exact hlast hc rfl
  | cons d s => exact hpair d s hc rfl

theorem unescapeBy_plain (h : c ≠ '\\') : unescapeBy f (c :: r) = c :: unescapeBy f r := by
  rw [unescapeBy]
  · rintro rfl rfl
    exact h rfl
  · rintro d s rfl rfl
    exact h rfl

theorem unescapeBy_some (h : f c = some d) (r : Text) :
    unescapeBy f ('\\' :: c :: r) = d :: unescapeBy f r := by
  rw [unescapeBy, h]

theorem unescapeBy_none (h : f c = none) (r : Text) :
    unescapeBy f ('\\' :: c :: r) = '\\' :: unescapeBy f (c :: r) := by
  rw [unescapeBy, h]

theorem isMeantBy_plain (h : c ≠ '\\') : isMeantBy f (c :: r) = (c != '\r' && isMeantBy f r) := by
  rw [isMeantBy]
  · rintro rfl rfl
    exact h rfl
  · rintro d s rfl rfl
    exact h rfl
  · rintro d s rfl rfl
    exact h rfl

theorem isMeantBy_escape (h : c ≠ '\\') :
    isMeantBy f ('\\' :: c :: r) = ((f c).isSome && isMeantBy f r) := by
  rw [isMeantBy]
  rintro d s rfl rfl
  exact h rfl

theorem unescapeBy_append {w : Text} (h : '\\' ∉ w) (r : Text) :
    unescapeBy f (w ++ r) = w ++ unescapeBy f r := by
  induction w with
  | nil => rfl
  | cons c w ih =>
    rw [List.mem_cons, not_or] at h
    rw [List.cons_append, unescapeBy_plain (Ne.symm h.1), ih h.2, List.cons_append]

/-- Two passes are one if the second finds nothing to do in what the first has written. -/
theorem unescapeBy_unescapeBy (hf : f '\\' = none) (hg : g '\\' = none)
    (hfg : ∀ c d, f c = some d → d ≠ '\\' ∧ g d = none) (t : Text) :
    unescapeBy g (unescapeBy f t) = unescapeBy (fun c ↦ (f c).or (g c)) t := by
  fun_induction unescapeBy f t with
  | case1 => rfl
  | case2 => rfl
  | case3 c r d hd ih =>
    rw [unescapeBy_plain (hfg c d hd).1, ih, unescapeBy_some (by rw [hd]; rfl)]
  | case4 c r hc ih =>
    by_cases hslash : c = '\\'
    · subst hslash
      -- Whatever the first pass makes of the second backslash, it is not escaped by the first.
      obtain ⟨x, y, heq, hx⟩ : ∃ x y, unescapeBy f ('\\' :: r) = x :: y ∧ g x = none := by
        cases r with
        | nil => exact ⟨_, _, rfl, hg⟩
        | cons d r =>
          cases hd : f d with
          | none => exact ⟨_, _, unescapeBy_none hd r, hg⟩
          | some e => exact ⟨_, _, unescapeBy_some hd r, (hfg d e hd).2⟩
      rw [heq] at ih ⊢
      rw [unescapeBy_none hx, ih, unescapeBy_none (by rw [hf, hg]; rfl)]
    · rw [unescapeBy_plain hslash] at ih ⊢
      cases hd : g c with
      | none => rw [unescapeBy_none hd, ih, unescapeBy_none (by rw [hc, hd]; rfl)]
      | some e =>
        rw [unescapeBy_plain hslash, unescapeBy_plain hslash] at ih
        rw [unescapeBy_some hd, (List.cons.inj ih).2, unescapeBy_some (by rw [hc, hd]; rfl)]
  | case5 c r hlast hpair ih =>
    have hc : c ≠ '\\' := ne_slash_of hlast hpair
    rw [unescapeBy_plain hc, ih, unescapeBy_plain hc]

def only (c d : Char) : Char → Option Char := fun x ↦ if x = c then some d else none

theorem replace_eq_unescapeBy (hc : c ≠ '\\') (t : Text) :
    replace ['\\', c] [d] t = unescapeBy (only c d) t := by
  fun_induction unescapeBy (only c d) t with
  | case1 => rfl
  | case2 => exact replace_plain (by simp [List.cons_prefix_cons])
  | case3 x r e he ih =>
    obtain ⟨rfl, rfl⟩ : x = c ∧ d = e := by simpa [only] using he
    have hescape := replace_append (List.cons_ne_nil '\\' [x]) [d] r
    exact hescape.trans (congrArg (d :: ·) ih)
  | case4 x r hx ih =>
    have hne : x ≠ c := by simpa [only] using hx
    rw [replace_plain (by simp [List.cons_prefix_cons, Ne.symm hne]), ih]
  | case5 x r hlast hpair ih =>
    have hx : x ≠ '\\' := ne_slash_of hlast hpair
    rw [replace_plain (by simp [List.cons_prefix_cons, Ne.symm hx]), ih]

theorem unescapeBy_nothing (t : Text) : unescapeBy (fun _ ↦ none) t = t := by
  fun_induction unescapeBy (fun _ ↦ none) t with
  | case1 => rfl
  | case2 => rfl
  | case3 c r d hd => cases hd
  | case4 c r _ ih => rw [ih]
  | case5 c r _ _ ih => rw [ih]

/-- Escapes replaced one kind after the other are replaced in one pass, if no replacement is a
character whose escape is still to come. -/
theorem foldl_replace_eq (table : List (Char × Char))
    (hslash : ∀ p ∈ table, p.1 ≠ '\\' ∧ p.2 ≠ '\\') (hlater : table.Pairwise (·.2 ≠ ·.1))
    (t : Text) :
    table.foldl (fun t p ↦ replace ['\\', p.1] [p.2] t) t = unescapeBy (table.lookup ·) t := by
  induction table generalizing t with
  | nil => exact (unescapeBy_nothing t).symm
  | cons p table ih =>
    obtain ⟨⟨hfrom, hto⟩, hslash⟩ := List.forall_mem_cons.1 hslash
    obtain ⟨hnew, hlater⟩ := List.pairwise_cons.1 hlater
    have hnone {c : Char} (hc : ∀ q ∈ table, q.1 ≠ c) : table.lookup c = none :=
      List.lookup_eq_none_iff.2 fun q hq ↦ by simpa using (hc q hq).symm
    rw [List.foldl_cons, ih hslash hlater, replace_eq_unescapeBy hfrom, unescapeBy_unescapeBy]
    · congr 1
      funext c
      rw [List.lookup_cons, only]
      by_cases hc : c = p.1
      · simp [hc]
      · simp [hc, beq_false_of_ne hc]
    · exact if_neg (Ne.symm hfrom)
    · exact hnone fun q hq ↦ (hslash q hq).1
    · intro c d hd
      obtain ⟨-, rfl⟩ : c = p.1 ∧ p.2 = d := by simpa [only] using hd
      exact ⟨hto, hnone fun q hq ↦ (hnew q hq).symm⟩

/-- A table that says of some characters, each of one unit, what their escapes mean. -/
structure Sound (f : Char → Option Char) : Prop where
  slash : f '\\' = none
  escape : ∀ c d, f c = some d → ∀ r, escape? (c :: r) = some (codeUnits d.toNat, 1)
  narrow : ∀ c d, f c = some d → c.toNat < 0x10000

theorem sound_lookup {table : List (Char × Char)} (h : ∀ p ∈ table, p.1 ≠ '\\' ∧
    p.1.toNat < 0x10000 ∧ ∀ r, escape? (p.1 :: r) = some (codeUnits p.2.toNat, 1)) :
    Sound (table.lookup ·) := by
  refine ⟨?_, fun c d hd ↦ (h _ (mem_of_lookup hd)).2.2, fun c d hd ↦ (h _ (mem_of_lookup hd)).2.1⟩
  exact List.lookup_eq_none_iff.2 fun p hp ↦ by simpa using (h p hp).1.symm

end Replacing

section Comparing

variable {f : Char → Option Char} {δ : Delimiter} {t : Text} {v : List Nat}

/-- An escape outside the table stays as it stands. -/
theorem unescapeBy_escapeSpan {w : Text} {u : List Nat} (hw : EscapeSpan w u)
    (hf : ∀ c ∈ w.head?, f c = none ∧ c ≠ '\\') (s : Text) :
    unescapeBy f ('\\' :: w ++ s) = '\\' :: w ++ unescapeBy f s := by
  obtain ⟨c, w, rfl, hslash, -⟩ := hw.head
  obtain ⟨hnone, hc⟩ := hf c rfl
  have hall : '\\' ∉ c :: w := by
    rw [List.mem_cons, not_or]
    exact ⟨Ne.symm hc, hslash⟩
  rw [List.cons_append, List.cons_append, unescapeBy_none hnone, ← List.cons_append,
    unescapeBy_append hall]
  rfl

/-- A backslash before a text is left alone unless the text begins with a character of the table. -/
theorem unescapeBy_slash (f : Char → Option Char) (s : Text) :
    (∃ c d r, s = c :: r ∧ f c = some d ∧ unescapeBy f ('\\' :: s) = d :: unescapeBy f r) ∨
    ((∀ c ∈ s.head?, f c = none) ∧ unescapeBy f ('\\' :: s) = '\\' :: unescapeBy f s) := by
  cases s with
  | nil => exact .inr ⟨nofun, rfl⟩
  | cons c r =>
    cases hc : f c with
    | none =>
      refine .inr ⟨fun d hd ↦ ?_, unescapeBy_none hc r⟩
      rwa [← Option.some.inj hd]
    | some d => exact .inl ⟨c, d, r, rfl, hc, unescapeBy_some hc r⟩

section Sound

variable (hf : Sound f)

include hf

theorem Sound.ne_slash {c d : Char} (h : f c = some d) : c ≠ '\\' := by
  rintro rfl
  rw [hf.slash] at h
  cases h

theorem Sound.ne_lineEnd {c d : Char} (h : f c = some d) : c ≠ '\r' := by
  rintro rfl
  have hread := hf.escape _ _ h []
  have hempty : escape? ['\r'] = some ([], 1) := by decide
  have hunits : codeUnits d.toNat = [] := by
    rw [hempty] at hread
    exact (Prod.mk.inj (Option.some.inj hread)).1.symm
  exact absurd (codeUnits_length_pos d.toNat) (by rw [hunits]; exact Nat.lt_irrefl 0)

theorem Sound.length_codeUnits {c d : Char} (h : f c = some d) :
    (codeUnits c.toNat).length = 1 := by
  rw [codeUnits, if_pos (hf.narrow c d h)]
  rfl

/-- An escape is one of the table, the doubled backslash, or another one. -/
theorem Sound.escape_cases {w s : Text} {u : List Nat} (hw : EscapeSpan w u)
    (hread : escape? (w ++ s) = some (u, w.length)) :
    (∃ c d, w = [c] ∧ f c = some d ∧ u = codeUnits d.toNat) ∨ (w = ['\\'] ∧ u = [92]) ∨
      ∀ c ∈ w.head?, f c = none ∧ c ≠ '\\' := by
  obtain ⟨c, w, rfl, -, hslash⟩ := hw.head
  by_cases hc : c = '\\'
  · obtain ⟨rfl, rfl⟩ := hslash hc
    exact .inr (.inl ⟨by rw [hc], rfl⟩)
  cases hd : f c with
  | none =>
    refine .inr (.inr fun e he ↦ ?_)
    cases he
    exact ⟨hd, hc⟩
  | some d =>
    rw [List.cons_append, hf.escape c d hd] at hread
    obtain ⟨hu, hlength⟩ := Prod.mk.inj (Option.some.inj hread)
    have hnil : w = [] := List.eq_nil_of_length_eq_zero (Nat.succ.inj hlength).symm
    exact .inl ⟨c, d, by rw [hnil], hd, hu.symm⟩

/-- No pass makes a text shorter than its meaning. -/
theorem Sound.length_meaning?_le (h : meaning? δ t = some v) :
    v.length ≤ (units (unescapeBy f t)).length := by
  refine meaning?_induction (P := fun t v ↦ v.length ≤ (units (unescapeBy f t)).length)
    ?nil ?plain ?lineEnd ?escape h
  case nil => exact Nat.le_refl 0
  case plain =>
    intro c r v hc _ _ ih
    rw [unescapeBy_plain hc, units_cons, List.length_append, List.length_append]
    omega
  case lineEnd =>
    intro r u v _ hu _ ih
    have hlength : u.length ≤ 1 := by rcases hu with rfl | rfl <;> decide
    have hpos := codeUnits_length_pos ('\r' : Char).toNat
    rw [unescapeBy_plain (by decide), units_cons, List.length_append, List.length_append]
    omega
  case escape =>
    intro w s u v hw hread _ ih
    rcases hf.escape_cases hw hread with ⟨c, d, rfl, hd, rfl⟩ | ⟨rfl, rfl⟩ | hother
    · change _ ≤ (units (unescapeBy f ('\\' :: c :: s))).length
      rw [unescapeBy_some hd, units_cons, List.length_append, List.length_append]
      omega
    · change _ ≤ (units (unescapeBy f ('\\' :: '\\' :: s))).length
      rw [unescapeBy_none hf.slash, units_cons, List.length_append, List.length_append]
      -- The second backslash takes at most a character of one unit with it.
      have hrest : (units (unescapeBy f s)).length ≤ (units (unescapeBy f ('\\' :: s))).length := by
        rcases unescapeBy_slash f s with ⟨c, d, r, rfl, hd, heq⟩ | ⟨-, heq⟩
        · have hpos := codeUnits_length_pos d.toNat
          rw [heq, unescapeBy_plain (hf.ne_slash hd), units_cons, units_cons, List.length_append,
            List.length_append, hf.length_codeUnits hd]
          omega
        · rw [heq, units_cons, List.length_append]
          omega
      have hpos := codeUnits_length_pos ('\\' : Char).toNat
      simp only [List.length_singleton]
      omega
    · have hshort := hw.short
      rw [unescapeBy_escapeSpan hw hother, units_append, List.length_append, List.length_append,
        units_cons, List.length_append]
      omega

/-- A doubled backslash is got right only where its second half is taken for an escape of the
character behind it, and that escape means the character. -/
theorem Sound.units_slash_eq_iff {s : Text} (hs : meaning? δ s = some v)
    (ih : units (unescapeBy f s) = v ↔ isMeantBy f s = true) :
    units (unescapeBy f ('\\' :: s)) = v ↔ isMeantBy f ('\\' :: '\\' :: s) = true := by
  rcases unescapeBy_slash f s with ⟨c, d, r, rfl, hd, heq⟩ | ⟨hhead, heq⟩
  · have hc := hf.ne_slash hd
    have hbreak := hf.ne_lineEnd hd
    rw [heq, isMeantBy, hd]
    by_cases hdc : d = c
    · subst hdc
      rw [unescapeBy_plain hc, isMeantBy_plain hc] at ih
      simpa [hbreak] using ih
    · refine iff_of_false (fun hv ↦ ?_) (by simp [hdc])
      obtain ⟨-, u, v', hplain, -, rfl⟩ :=
        (meaning?_cons hs).resolve_right fun h ↦ hc h.1
      obtain ⟨-, rfl⟩ := (plain?_cases hplain).resolve_right fun h ↦ hbreak h.1
      exact hdc (codeUnits_append_inj hv).1
  · have hle := hf.length_meaning?_le hs
    have hpos := codeUnits_length_pos ('\\' : Char).toNat
    rw [heq]
    refine iff_of_false (fun hv ↦ ?_) ?_
    · have hlength := congrArg List.length hv
      rw [units_cons, List.length_append] at hlength
      omega
    · cases s with
      | nil => simp [isMeantBy, hf.slash]
      | cons c r => simp [isMeantBy, hhead c rfl]

/-- A pass finds the meaning of a text just if the table knows all its escapes. -/
theorem Sound.units_unescapeBy_eq_iff (h : meaning? δ t = some v) :
    units (unescapeBy f t) = v ↔ isMeantBy f t = true := by
  refine meaning?_induction (P := fun t v ↦ units (unescapeBy f t) = v ↔ isMeantBy f t = true)
    ?nil ?plain ?lineEnd ?escape h
  case nil => exact ⟨fun _ ↦ rfl, fun _ ↦ rfl⟩
  case plain =>
    intro c r v hc hbreak _ ih
    have hbreak' : (c != '\r') = true := by simpa using hbreak
    rw [unescapeBy_plain hc, units_cons, List.append_cancel_left_eq, isMeantBy_plain hc, hbreak',
      Bool.true_and]
    exact ih
  case lineEnd =>
    intro r u v _ hu hr _
    rw [isMeantBy_plain (by decide), unescapeBy_plain (by decide), units_cons]
    refine iff_of_false (fun heq ↦ ?_) (by simp)
    rcases hu with rfl | rfl
    · have hle := hf.length_meaning?_le hr
      have hlength := congrArg List.length heq
      have hpos := codeUnits_length_pos ('\r' : Char).toNat
      rw [List.length_append] at hlength
      simp only [List.nil_append] at hlength
      omega
    · have hhead : (13 : Nat) = 10 := (List.cons.inj heq).1
      exact absurd hhead (by decide)
  case escape =>
    intro w s u v hw hread hs ih
    rcases hf.escape_cases hw hread with ⟨c, d, rfl, hd, rfl⟩ | ⟨rfl, rfl⟩ | hother
    · change units (unescapeBy f ('\\' :: c :: s)) = _ ↔ isMeantBy f ('\\' :: c :: s) = true
      rw [unescapeBy_some hd, units_cons, List.append_cancel_left_eq,
        isMeantBy_escape (hf.ne_slash hd), hd]
      exact ih
    · change units (unescapeBy f ('\\' :: '\\' :: s)) = _ ↔
        isMeantBy f ('\\' :: '\\' :: s) = true
      rw [unescapeBy_none hf.slash, units_cons]
      change 92 :: units (unescapeBy f ('\\' :: s)) = 92 :: v ↔ _
      rw [List.cons.injEq]
      simpa using hf.units_slash_eq_iff hs ih
    · have hle := hf.length_meaning?_le hs
      have hshort := hw.short
      have hpos := codeUnits_length_pos ('\\' : Char).toNat
      rw [unescapeBy_escapeSpan hw hother, units_append, units_cons]
      refine iff_of_false (fun hv ↦ ?_) ?_
      · have hlength := congrArg List.length hv
        simp only [List.length_append] at hlength
        omega
      · obtain ⟨c, w, rfl, -, -⟩ := hw.head
        obtain ⟨hnone, hc⟩ := hother c rfl
        change ¬isMeantBy f ('\\' :: c :: (w ++ s)) = true
        simp [isMeantBy_escape hc, hnone]

theorem Sound.not_mem_lineEnd (hbreak : ∀ c, f c ≠ some '\r') (h : isMeantBy f t = true) :
    '\r' ∉ unescapeBy f t := by
  fun_induction isMeantBy f t with
  | case1 => exact List.not_mem_nil
  | case2 => cases h
  | case3 c r ih =>
    rw [Bool.and_eq_true, beq_iff_eq] at h
    rw [unescapeBy_none hf.slash, unescapeBy_some h.1]
    simp [hf.ne_lineEnd h.1 |>.symm, ih h.2]
  | case4 c r _ ih =>
    rw [Bool.and_eq_true, Option.isSome_iff_exists] at h
    obtain ⟨⟨d, hd⟩, hr⟩ := h
    have hne : d ≠ '\r' := by
      rintro rfl
      exact hbreak c hd
    rw [unescapeBy_some hd]
    simp [hne.symm, ih hr]
  | case5 c r hlast hdouble hpair ih =>
    rw [Bool.and_eq_true, bne_iff_ne] at h
    rw [unescapeBy_plain (ne_slash_of hlast hpair)]
    simp [h.1.symm, ih h.2]

end Sound

theorem sound_nothing : Sound fun _ ↦ none where
  slash := rfl
  escape := nofun
  narrow := nofun

/-- A literal that means what it spells has no escape, and no line break that counts as another. -/
theorem not_mem_of_units_eq (h : meaning? δ t = some v) (hv : units t = v) :
    '\\' ∉ t ∧ '\r' ∉ t := by
  have hmeant : isMeantBy (fun _ ↦ none) t = true := by
    rw [← sound_nothing.units_unescapeBy_eq_iff h, unescapeBy_nothing, hv]
  constructor
  · clear hv h
    fun_induction isMeantBy (fun _ ↦ none) t with
    | case1 => exact List.not_mem_nil
    | case2 => cases hmeant
    | case3 => cases hmeant
    | case4 => cases hmeant
    | case5 c r hlast hdouble hpair ih =>
      rw [Bool.and_eq_true] at hmeant
      rw [List.mem_cons, not_or]
      exact ⟨(ne_slash_of hlast hpair).symm, ih hmeant.2⟩
  · have hbreak := sound_nothing.not_mem_lineEnd nofun hmeant
    rwa [unescapeBy_nothing] at hbreak

end Comparing

end ViewForge.Script
