import Mathlib.Data.Int.Log
import Mathlib.Data.List.TakeWhile
import Mathlib.Data.Rat.Floor
import Mathlib.Tactic.Positivity
import ViewForge.Text.Entity

namespace ViewForge

open Text

/-- A number, or what is left of one that is too large. Zero has no sign. -/
inductive Amount where
  | finite (value : ℚ)
  | infinite (negative : Bool)
  deriving DecidableEq

def Amount.neg : Amount → Amount
  | .finite q => .finite (-q)
  | .infinite negative => .infinite !negative

def nearestEven (q : ℚ) : ℤ :=
  if q - ⌊q⌋ < 1 / 2 then ⌊q⌋
  else if 1 / 2 < q - ⌊q⌋ then ⌊q⌋ + 1
  else ⌊q⌋ + ⌊q⌋ % 2

/-- The nearest double, for numbers that are not negative. -/
def nearestDouble (q : ℚ) : Amount :=
  let unit : ℚ := 2 ^ max (Int.log 2 q - 52) (-1074)
  let rounded := nearestEven (q / unit) * unit
  if rounded < 2 ^ 1024 then .finite rounded else .infinite false

namespace Numeral

def isDigitOf (base : Nat) (c : Char) : Bool := isHexDigit c && hexValue c < base

def isDigits (base : Nat) : Text → Bool
  | [] => false
  | [c] => isDigitOf base c
  | c :: '_' :: r => isDigitOf base c && isDigits base r
  | c :: r => isDigitOf base c && isDigits base r

def isWhole (t : Text) : Bool := t == ['0'] || (isDigits 10 t && t.head? != some '0')

def digitsValue (base : Nat) (t : Text) : Nat := numeral base (t.filter (· != '_'))

def baseOf? (c : Char) : Option Nat :=
  if c == 'x' || c == 'X' then some 16
  else if c == 'o' || c == 'O' then some 8
  else if c == 'b' || c == 'B' then some 2
  else none

def integer? : Text → Option Nat
  | '0' :: c :: r =>
    match baseOf? c with
    | some base => if isDigits base r then some (digitsValue base r) else none
    | none => none
  | t => if isWhole t then some (digitsValue 10 t) else none

def isExponentMark (c : Char) : Bool := c == 'e' || c == 'E'

def mantissa (t : Text) : Text := t.takeWhile (!isExponentMark ·)

def exponent (t : Text) : Option Text := (t.dropWhile (!isExponentMark ·)).tail?

def whole (t : Text) : Text := (mantissa t).takeWhile (· != '.')

def fraction (t : Text) : Option Text := ((mantissa t).dropWhile (· != '.')).tail?

def power? : Text → Option ℤ
  | '-' :: r => if isDigits 10 r then some (-digitsValue 10 r) else none
  | '+' :: r => if isDigits 10 r then some (digitsValue 10 r) else none
  | r => if isDigits 10 r then some (digitsValue 10 r) else none

def decimalValue (t : Text) (power : ℤ) : ℚ :=
  let places := ((fraction t).getD []).countP (· != '_')
  digitsValue 10 (whole t ++ (fraction t).getD []) * 10 ^ (power - places)

def isClosed (t : Text) : Bool := isWhole (whole t) && (fraction t).all (isDigits 10)

def isOpen (t : Text) : Bool :=
  (isWhole (whole t) && fraction t == some []) ||
    ((whole t).isEmpty && (fraction t).any (isDigits 10))

def decimal? (form : Text → Bool) (t : Text) : Option ℚ :=
  if form t then (((exponent t).map power?).getD (some 0)).map (decimalValue t) else none

def isMantissa (t : Text) : Bool := isClosed t || isOpen t

end Numeral

open Numeral

def Script.number? (t : Text) : Option Amount :=
  match integer? t with
  | some n => some (nearestDouble n)
  | none =>
    if t.getLast? == some 'n' then (integer? t.dropLast).map fun n : Nat ↦ .finite n
    else (decimal? isMantissa t).map nearestDouble

def Ruby.number? (t : Text) : Option Amount :=
  match integer? t with
  | some n => some (.finite n)
  | none => (decimal? isClosed t).map nearestDouble

/-- A numeral of a script that Ruby takes for the same number: an integer that is a double, or a
decimal with digits before its point and behind it. -/
def Numeral.Portable (t : Text) : Prop :=
  match integer? t with
  | some n => nearestDouble n = .finite n
  | none => t.getLast? ≠ some 'n' ∧ whole t ≠ [] ∧ fraction t ≠ some []

section Double

theorem nearestEven_intCast (k : ℤ) : nearestEven k = k := by
  simp [nearestEven]

/-- Integers of up to 53 bits are doubles. -/
theorem nearestDouble_natCast {n : Nat} (h : n < 2 ^ 53) : nearestDouble n = .finite n := by
  obtain ⟨k, hk⟩ : ∃ k : ℕ, max (Int.log 2 (n : ℚ) - 52) (-1074) = -(k : ℤ) := by
    have hlog : Int.log 2 (n : ℚ) ≤ 52 := by
      rw [Int.log_natCast]
      have hlt : Nat.log 2 n < 53 := by
        rcases Nat.eq_zero_or_pos n with rfl | hpos
        · decide
        · exact (Nat.log_lt_iff_lt_pow (by decide) (Nat.pos_iff_ne_zero.1 hpos)).2 h
      omega
    exact ⟨(max (Int.log 2 (n : ℚ) - 52) (-1074)).natAbs, by omega⟩
  have hscaled : (n : ℚ) / 2 ^ (-(k : ℤ)) = ((n * 2 ^ k : ℕ) : ℤ) := by
    push_cast
    rw [zpow_neg, div_inv_eq_mul, zpow_natCast]
  have hback : (((n * 2 ^ k : ℕ) : ℤ) : ℚ) * 2 ^ (-(k : ℤ)) = n := by
    rw [← hscaled, div_mul_cancel₀]
    exact zpow_ne_zero _ (by norm_num)
  have hsmall : (n : ℚ) < 2 ^ 1024 := by
    calc (n : ℚ) < 2 ^ 53 := by exact_mod_cast h
      _ ≤ 2 ^ 1024 := by gcongr <;> norm_num
  simp only [nearestDouble, hk, hscaled, nearestEven_intCast, hback, if_pos hsmall]

end Double

namespace Numeral

section Spelling

variable {base n : Nat} {c : Char} {t : Text}

theorem forall_mem_of_isDigits (h : isDigits base t = true) :
    ∀ c ∈ t, isDigitOf base c = true ∨ c = '_' := by
  fun_induction isDigits base t with
  | case1 => cases h
  | case2 c => exact List.forall_mem_singleton.2 (.inl h)
  | case3 c r ih =>
    rw [Bool.and_eq_true] at h
    exact List.forall_mem_cons.2 ⟨.inl h.1, List.forall_mem_cons.2 ⟨.inr rfl, ih h.2⟩⟩
  | case4 c r _ _ ih =>
    rw [Bool.and_eq_true] at h
    exact List.forall_mem_cons.2 ⟨.inl h.1, ih h.2⟩

theorem isDigits_of_isWhole (h : isWhole t = true) : isDigits 10 t = true := by
  rw [isWhole, Bool.or_eq_true, beq_iff_eq, Bool.and_eq_true] at h
  rcases h with rfl | h
  · decide
  · exact h.1

def isDecimalPart (c : Char) : Bool := isDigitOf 10 c || "_.eE+-".toList.contains c

theorem isDecimalPart_of_isDigits (h : isDigits 10 t = true) : ∀ c ∈ t, isDecimalPart c = true := by
  intro c hc
  rcases forall_mem_of_isDigits h c hc with hdigit | rfl
  · rw [isDecimalPart, hdigit, Bool.true_or]
  · decide

theorem isDecimalPart_of_power? {k : ℤ} (h : power? t = some k) :
    ∀ c ∈ t, isDecimalPart c = true := by
  unfold power? at h
  split at h <;> split at h
  next hdigits => exact List.forall_mem_cons.2 ⟨by decide, isDecimalPart_of_isDigits hdigits⟩
  next => cases h
  next hdigits => exact List.forall_mem_cons.2 ⟨by decide, isDecimalPart_of_isDigits hdigits⟩
  next => cases h
  next hdigits => exact isDecimalPart_of_isDigits hdigits
  next => cases h

theorem isDecimalPart_of_isMantissa (h : isMantissa t = true) :
    (∀ c ∈ whole t, isDecimalPart c = true) ∧
      ∀ r ∈ fraction t, ∀ c ∈ r, isDecimalPart c = true := by
  simp only [isMantissa, isClosed, isOpen, Bool.or_eq_true, Bool.and_eq_true, beq_iff_eq,
    List.isEmpty_iff, Option.all_eq_true, Option.any_eq_true] at h
  rcases h with ⟨hwhole, hdigits⟩ | ⟨hwhole, hnone⟩ | ⟨hnone, r, hr, hdigits⟩
  · refine ⟨isDecimalPart_of_isDigits (isDigits_of_isWhole hwhole), fun r hr ↦ ?_⟩
    exact isDecimalPart_of_isDigits (hdigits r hr)
  · refine ⟨isDecimalPart_of_isDigits (isDigits_of_isWhole hwhole), ?_⟩
    simp [hnone]
  · refine ⟨by simp [hnone], ?_⟩
    simpa [hr] using isDecimalPart_of_isDigits hdigits

/-- A text is taken apart at the first character of some kind. -/
theorem forall_mem_of_tail? {P : Char → Prop} (p : Char → Bool) (hmark : ∀ c, p c = false → P c)
    (hbefore : ∀ c ∈ t.takeWhile p, P c) (hafter : ∀ r ∈ (t.dropWhile p).tail?, ∀ c ∈ r, P c) :
    ∀ c ∈ t, P c := by
  rw [← List.takeWhile_append_dropWhile (p := p) (l := t), List.forall_mem_append]
  refine ⟨hbefore, ?_⟩
  have hstop := List.head?_dropWhile_not p t
  generalize t.dropWhile p = rest at hafter hstop
  cases rest with
  | nil => exact List.forall_mem_nil P
  | cons c r =>
    refine List.forall_mem_cons.2 ⟨hmark c ?_, hafter r rfl⟩
    simpa using hstop

theorem isDecimalPart_of_decimal? {q : ℚ} (h : decimal? isMantissa t = some q) :
    ∀ c ∈ t, isDecimalPart c = true := by
  rw [decimal?] at h
  split at h
  next hform =>
    obtain ⟨power, hpower, -⟩ := Option.map_eq_some_iff.1 h
    obtain ⟨hwhole, hfraction⟩ := isDecimalPart_of_isMantissa hform
    refine forall_mem_of_tail? (!isExponentMark ·) ?_ ?_ ?_
    · intro c hc
      simp only [isExponentMark, Bool.not_eq_false', Bool.or_eq_true, beq_iff_eq] at hc
      rcases hc with rfl | rfl <;> decide
    · refine forall_mem_of_tail? (· != '.') ?_ hwhole hfraction
      intro c hc
      rw [show c = '.' by simpa using hc]
      decide
    · intro r hr
      rw [exponent, Option.mem_def.1 hr] at hpower
      exact isDecimalPart_of_power? hpower
  · cases h

def isPart (c : Char) : Bool := isAsciiDigit c || isAsciiLetter c || "_.+-".toList.contains c

theorem toNat_of_isPart (h : isPart c = true) : 32 < c.toNat ∧ c.toNat < 128 := by
  have hrange {a b : Char} (ha : 32 < a.toNat) (hb : b.toNat < 128) (hab : a ≤ c ∧ c ≤ b) :
      32 < c.toNat ∧ c.toNat < 128 :=
    ⟨Nat.lt_of_lt_of_le ha hab.1, Nat.lt_of_le_of_lt hab.2 hb⟩
  simp only [isPart, isAsciiDigit, isAsciiLetter, isAsciiUpper, isAsciiLower, Bool.or_eq_true,
    Bool.and_eq_true, decide_eq_true_eq] at h
  rcases h with (h | h | h) | h
  · exact hrange (by decide) (by decide) h
  · exact hrange (by decide) (by decide) h
  · exact hrange (by decide) (by decide) h
  · have hall : ∀ c ∈ "_.+-".toList, 32 < c.toNat ∧ c.toNat < 128 := by simp
    exact hall c (List.contains_iff_mem.1 h)

theorem isPart_of_isDigitOf (h : isDigitOf base c = true) : isPart c = true := by
  simp only [isDigitOf, isHexDigit, Bool.and_eq_true, Bool.or_eq_true, decide_eq_true_eq] at h
  rcases h.1 with (hdigit | ⟨hlow, hhigh⟩) | ⟨hlow, hhigh⟩
  · rw [isPart, hdigit, Bool.true_or, Bool.true_or]
  · have hletter : isAsciiLower c = true := by
      simp [isAsciiLower, hlow, Char.le_trans hhigh (by decide : 'f' ≤ 'z')]
    simp [isPart, isAsciiLetter, hletter]
  · have hletter : isAsciiUpper c = true := by
      simp [isAsciiUpper, hlow, Char.le_trans hhigh (by decide : 'F' ≤ 'Z')]
    simp [isPart, isAsciiLetter, hletter]

theorem isPart_of_isDigits (h : isDigits base t = true) : ∀ c ∈ t, isPart c = true := by
  intro c hc
  rcases forall_mem_of_isDigits h c hc with hdigit | rfl
  · exact isPart_of_isDigitOf hdigit
  · decide

theorem isPart_of_isDecimalPart (h : isDecimalPart c = true) : isPart c = true := by
  rw [isDecimalPart, Bool.or_eq_true] at h
  rcases h with hdigit | hmark
  · exact isPart_of_isDigitOf hdigit
  · have hall : ∀ c ∈ "_.eE+-".toList, isPart c = true := List.all_eq_true.1 (by decide)
    exact hall c (List.contains_iff_mem.1 hmark)

theorem isPart_of_integer? (h : integer? t = some n) : ∀ c ∈ t, isPart c = true := by
  unfold integer? at h
  split at h
  next c r =>
    split at h
    next base hbase =>
      split at h
      next hdigits =>
        have hc : isPart c = true := by
          simp only [baseOf?, Bool.or_eq_true, beq_iff_eq] at hbase
          split_ifs at hbase with hx ho hb
          · rcases hx with rfl | rfl <;> rfl
          · rcases ho with rfl | rfl <;> rfl
          · rcases hb with rfl | rfl <;> rfl
        exact List.forall_mem_cons.2 ⟨rfl, List.forall_mem_cons.2 ⟨hc, isPart_of_isDigits hdigits⟩⟩
      · cases h
    · cases h
  · split at h
    next hwhole => exact isPart_of_isDigits (isDigits_of_isWhole hwhole)
    · cases h

theorem isPart_of_number? {a : Amount} (h : Script.number? t = some a) :
    ∀ c ∈ t, isPart c = true := by
  unfold Script.number? at h
  split at h
  next n hn => exact isPart_of_integer? hn
  next =>
    split at h
    next hlast =>
      obtain ⟨r, rfl⟩ := List.getLast?_eq_some_iff.1 (beq_iff_eq.1 hlast)
      obtain ⟨n, hn, -⟩ := Option.map_eq_some_iff.1 h
      rw [List.dropLast_concat] at hn
      exact List.forall_mem_append.2 ⟨isPart_of_integer? hn, List.forall_mem_singleton.2 rfl⟩
    next =>
      obtain ⟨q, hq, -⟩ := Option.map_eq_some_iff.1 h
      exact fun c hc ↦ isPart_of_isDecimalPart (isDecimalPart_of_decimal? hq c hc)

end Spelling

section Sign

theorem isDigits_minus (base : Nat) (r : Text) : isDigits base ('-' :: r) = false := by
  rw [← Bool.not_eq_true]
  intro h
  rcases forall_mem_of_isDigits h '-' List.mem_cons_self with hdigit | hmark
  · cases hdigit
  · cases hmark

theorem isWhole_minus (r : Text) : isWhole ('-' :: r) = false := by
  simp [isWhole, isDigits_minus]

/-- No numeral begins with a sign. -/
theorem number?_minus (r : Text) : Script.number? ('-' :: r) = none := by
  have hinteger (r : Text) : integer? ('-' :: r) = none := by simp [integer?, isWhole_minus]
  have hwhole : whole ('-' :: r) = '-' :: whole r := by
    simp [whole, mantissa, isExponentMark]
  have hdecimal : decimal? isMantissa ('-' :: r) = none := by
    simp [decimal?, isMantissa, isClosed, isOpen, hwhole, isWhole_minus]
  have hshort : integer? ('-' :: r).dropLast = none := by
    cases r with
    | nil => rfl
    | cons c r => exact hinteger _
  simp [Script.number?, hinteger, hdecimal, hshort]

end Sign

section Portable

variable {t : Text} {a : Amount}

theorem isClosed_iff_of_isMantissa (h : isMantissa t = true) :
    isClosed t = true ↔ whole t ≠ [] ∧ fraction t ≠ some [] := by
  constructor
  · intro hclosed
    rw [isClosed, Bool.and_eq_true] at hclosed
    constructor
    · intro hnil
      rw [hnil] at hclosed
      cases hclosed.1
    · intro hnil
      rw [hnil] at hclosed
      cases hclosed.2
  · rintro ⟨hwhole, hfraction⟩
    have hopen : isOpen t = false := by
      simp [isOpen, hwhole, hfraction]
    rwa [isMantissa, hopen, Bool.or_false] at h

theorem decimal?_isClosed (t : Text) :
    decimal? isClosed t = if isClosed t then decimal? isMantissa t else none := by
  cases h : isClosed t <;> simp [decimal?, isMantissa, h]

/-- Among the numerals of a script, Ruby reads just the portable ones as the same number. -/
theorem number?_eq_iff (h : Script.number? t = some a) : Ruby.number? t = some a ↔ Portable t := by
  unfold Script.number? at h
  unfold Ruby.number? Portable
  cases hn : integer? t with
  | some n =>
    rw [hn] at h
    cases h
    exact ⟨fun heq ↦ (Option.some.inj heq).symm, fun heq ↦ congrArg some heq.symm⟩
  | none =>
    simp only [hn] at h ⊢
    rw [decimal?_isClosed]
    split at h
    next hlast =>
      rw [beq_iff_eq] at hlast
      refine iff_of_false (fun hread ↦ ?_) fun hp ↦ hp.1 hlast
      obtain ⟨q, hq, -⟩ := Option.map_eq_some_iff.1 hread
      rw [Option.ite_none_right_eq_some] at hq
      exact absurd (isDecimalPart_of_decimal? hq.2 'n' (List.mem_of_getLast? hlast)) (by decide)
    next hlast =>
      rw [beq_iff_eq] at hlast
      obtain ⟨q, hq, rfl⟩ := Option.map_eq_some_iff.1 h
      have hform : isMantissa t = true := by
        rw [decimal?, Option.ite_none_right_eq_some] at hq
        exact hq.1
      rw [hq, ← isClosed_iff_of_isMantissa hform]
      cases isClosed t <;> simp [hlast]

end Portable

end Numeral

end ViewForge
