import Mathlib.Data.List.TakeWhile
import ViewForge.Text.Entity

namespace ViewForge.Script

open Text

def codeUnits (n : Nat) : List Nat :=
  if n < 0x10000 then [n]
  else [0xD800 + (n - 0x10000) / 0x400, 0xDC00 + (n - 0x10000) % 0x400]

def units (t : Text) : List Nat := t.flatMap fun c ↦ codeUnits c.toNat

def singleEscapes : List (Char × Nat) :=
  [('\'', 39), ('"', 34), ('\\', 92), ('b', 8), ('f', 12), ('n', 10), ('r', 13), ('t', 9),
   ('v', 11)]

def isLineEnd (c : Char) : Bool :=
  c == '\n' || c == '\r' || c == Char.ofNat 0x2028 || c == Char.ofNat 0x2029

def bracedEscape? (r : Text) : Option (List Nat × Nat) :=
  let digits := r.takeWhile isHexDigit
  if !digits.isEmpty && r[digits.length]? == some '}' && numeral 16 digits ≤ 0x10FFFF then
    some (codeUnits (numeral 16 digits), digits.length + 3)
  else none

def unicodeEscape? : Text → Option (List Nat × Nat)
  | '{' :: r => bracedEscape? r
  | a :: b :: c :: d :: _ =>
    if [a, b, c, d].all isHexDigit then some ([numeral 16 [a, b, c, d]], 5) else none
  | _ => none

def hexEscape? : Text → Option (List Nat × Nat)
  | a :: b :: _ => if [a, b].all isHexDigit then some ([numeral 16 [a, b]], 3) else none
  | _ => none

/-- The units that an escape stands for, and how many characters it takes behind its backslash.
Octal escapes are none, as in every module; a line break behind a backslash stands for nothing. -/
def escape? : Text → Option (List Nat × Nat)
  | [] => none
  | c :: r =>
    match singleEscapes.lookup c with
    | some u => some ([u], 1)
    | none =>
      if isAsciiDigit c then
        if c == '0' && !r.head?.any isAsciiDigit then some ([0], 1) else none
      else if c == 'x' then hexEscape? r
      else if c == 'u' then unicodeEscape? r
      else if c == '\r' && r.head? == some '\n' then some ([], 2)
      else if isLineEnd c then some ([], 1)
      else some (codeUnits c.toNat, 1)

inductive Delimiter where
  | apostrophe
  | quotation
  | backtick
  deriving DecidableEq, Repr

def Delimiter.char : Delimiter → Char
  | .apostrophe => '\''
  | .quotation => '"'
  | .backtick => Char.ofNat 96

/-- The units of a character that stands for itself, given what follows it. Only templates may run
over lines, and every line break in them counts as a line feed. -/
def plain? (d : Delimiter) (c : Char) (r : Text) : Option (List Nat) :=
  if c == d.char then none
  else if d == .backtick then
    if c == '$' && r.head? == some '{' then none
    else if c == '\r' then some (if r.head? == some '\n' then [] else [10])
    else some (codeUnits c.toNat)
  else if c == '\n' || c == '\r' then none
  else some (codeUnits c.toNat)

/-- The meaning of what stands between two delimiters, passing over `skip` characters of an escape
already read. -/
def meaningFrom? (d : Delimiter) : Nat → Text → Option (List Nat)
  | _, [] => some []
  | k + 1, _ :: r => meaningFrom? d k r
  | 0, c :: r =>
    match if c == '\\' then escape? r else (plain? d c r).map (·, 0) with
    | none => none
    | some (u, n) => (meaningFrom? d n r).map (u ++ ·)

def meaning? (d : Delimiter) (t : Text) : Option (List Nat) := meaningFrom? d 0 t

def literalMeaning? (d : Delimiter) : Text → Option (List Nat)
  | [] => none
  | c :: r => if c == d.char && r.getLast? == some d.char then meaning? d r.dropLast else none

/-- The value of a string literal, in either kind of quotes. -/
def stringMeaning? (source : Text) : Option (List Nat) :=
  (literalMeaning? .apostrophe source).or (literalMeaning? .quotation source)

section Units

theorem units_cons (c : Char) (t : Text) : units (c :: t) = codeUnits c.toNat ++ units t := rfl

theorem units_append (s t : Text) : units (s ++ t) = units s ++ units t := List.flatMap_append

theorem codeUnits_length_pos (n : Nat) : 0 < (codeUnits n).length := by
  unfold codeUnits
  split <;> simp

theorem units_ne_nil {t : Text} (h : t ≠ []) : units t ≠ [] := by
  obtain ⟨c, t, rfl⟩ := List.exists_cons_of_ne_nil h
  intro hnil
  have hpos := codeUnits_length_pos c.toNat
  rw [units_cons, List.append_eq_nil_iff] at hnil
  rw [hnil.1] at hpos
  exact absurd hpos (Nat.lt_irrefl 0)

theorem length_le_units (t : Text) : t.length ≤ (units t).length := by
  induction t with
  | nil => exact Nat.le_refl 0
  | cons c t ih =>
    have hpos := codeUnits_length_pos c.toNat
    rw [units_cons, List.length_append, List.length_cons]
    omega

theorem codeUnits_length_le (n : Nat) : (codeUnits n).length ≤ 2 := by
  unfold codeUnits
  split <;> simp

theorem codeUnits_of_mem_slash {n : Nat} (h : 92 ∈ codeUnits n) : codeUnits n = [92] := by
  unfold codeUnits at h ⊢
  split at h <;> simp only [List.mem_cons, List.not_mem_nil, or_false] at h
  · rw [if_pos ‹_›, h]
  · omega

/-- The first unit tells whether a second one belongs to it, since no character is a surrogate. -/
theorem codeUnits_append_inj {c d : Char} {a b : List Nat}
    (h : codeUnits c.toNat ++ a = codeUnits d.toNat ++ b) : c = d ∧ a = b := by
  have hscalar (c : Char) : c.toNat < 0xD800 ∨ 0xDFFF < c.toNat ∧ c.toNat < 0x110000 := c.valid
  have hc := hscalar c
  have hd := hscalar d
  have hpair : c.toNat = d.toNat ∧ a = b := by
    unfold codeUnits at h
    split at h <;> split at h <;>
      simp only [List.cons_append, List.nil_append, List.cons.injEq] at h
    · exact h
    · omega
    · omega
    · exact ⟨by omega, h.2.2⟩
  exact ⟨Char.toNat_inj.1 hpair.1, hpair.2⟩

theorem units_injective {s t : Text} (h : units s = units t) : s = t := by
  induction s generalizing t with
  | nil =>
    by_contra hne
    exact units_ne_nil (Ne.symm hne) h.symm
  | cons c s ih =>
    cases t with
    | nil => exact absurd h (units_ne_nil (List.cons_ne_nil c s))
    | cons d t =>
      obtain ⟨rfl, hrest⟩ := codeUnits_append_inj h
      rw [ih hrest]

end Units

section Meaning

variable {d : Delimiter} {c : Char} {r t : Text} {u v : List Nat} {n : Nat}

theorem meaningFrom?_eq (d : Delimiter) (k : Nat) (t : Text) :
    meaningFrom? d k t = meaning? d (t.drop k) := by
  induction t generalizing k with
  | nil => cases k <;> rfl
  | cons c t ih =>
    cases k with
    | zero => rfl
    | succ k => exact ih k

/-- A text is a character that stands for itself, or an escape, and then the rest. -/
theorem meaning?_cons (h : meaning? d (c :: r) = some v) :
    (c ≠ '\\' ∧ ∃ u v', plain? d c r = some u ∧ meaning? d r = some v' ∧ v = u ++ v') ∨
    (c = '\\' ∧ ∃ u n v', escape? r = some (u, n) ∧ meaning? d (r.drop n) = some v' ∧
      v = u ++ v') := by
  rw [meaning?, meaningFrom?] at h
  split at h
  · cases h
  next u n hread =>
    obtain ⟨v', hv', rfl⟩ := Option.map_eq_some_iff.1 h
    rw [meaningFrom?_eq] at hv'
    by_cases hc : c = '\\'
    · rw [hc] at hread
      exact .inr ⟨hc, u, n, v', hread, hv', rfl⟩
    · rw [if_neg (by simpa using hc)] at hread
      obtain ⟨u', hplain, hpair⟩ := Option.map_eq_some_iff.1 hread
      cases hpair
      exact .inl ⟨hc, u, v', hplain, hv', rfl⟩

theorem plain?_cases (h : plain? d c r = some u) :
    (c ≠ '\r' ∧ u = codeUnits c.toNat) ∨ (c = '\r' ∧ d = .backtick ∧ (u = [] ∨ u = [10])) := by
  unfold plain? at h
  split at h
  · cases h
  split at h
  next hd =>
    split at h
    · cases h
    split at h
    next hc =>
      refine .inr ⟨by simpa using hc, by simpa using hd, ?_⟩
      cases h
      split
      · exact .inl rfl
      · exact .inr rfl
    next hc =>
      cases h
      exact .inl ⟨by simpa using hc, rfl⟩
  · split at h
    · cases h
    next hc =>
      cases h
      simp only [Bool.or_eq_true, beq_iff_eq, not_or] at hc
      exact .inl ⟨hc.2, rfl⟩

/-- What is known of an escape: it goes no further than its own characters, none of which is a
backslash unless it stands for one. -/
structure EscapeSpan (w : Text) (u : List Nat) : Prop where
  head : ∃ c s, w = c :: s ∧ '\\' ∉ s ∧ (c = '\\' → s = [] ∧ u = [92])
  short : u.length ≤ (units w).length
  /-- Besides the doubled backslash, only digits can name one. -/
  slash : 92 ∈ u → u = [92] ∧ '&' ∉ w

/-- Escapes written in letters, digits and braces. -/
theorem EscapeSpan.of_letters {s : Text} (h : ∀ a ∈ c :: s, a ≠ '\\' ∧ a ≠ '&')
    (hlength : u.length ≤ s.length + 1) (hslash : 92 ∈ u → u = [92]) : EscapeSpan (c :: s) u where
  head := by
    refine ⟨c, s, rfl, fun hs ↦ (h _ (List.mem_cons_of_mem c hs)).1 rfl, fun hc ↦ ?_⟩
    exact absurd hc (h c List.mem_cons_self).1
  short := Nat.le_trans hlength (length_le_units (c :: s))
  slash hu := ⟨hslash hu, fun hamp ↦ (h _ hamp).2 rfl⟩

theorem ne_of_isHexDigit (h : isHexDigit c = true) : c ≠ '\\' ∧ c ≠ '&' := by
  constructor
  · rintro rfl
    exact absurd h (by decide)
  · rintro rfl
    exact absurd h (by decide)

theorem exists_hexEscape (h : hexEscape? r = some (u, n)) :
    ∃ w s, 'x' :: r = w ++ s ∧ w.length = n ∧ EscapeSpan w u := by
  unfold hexEscape? at h
  split at h
  next a b s =>
    split at h
    next hdigits =>
      cases h
      refine ⟨['x', a, b], s, rfl, rfl, .of_letters ?_ (by simp) (by simp [eq_comm])⟩
      refine List.forall_mem_cons.2 ⟨by decide, fun c hc ↦ ?_⟩
      exact ne_of_isHexDigit (List.all_eq_true.1 hdigits c hc)
    · cases h
  · cases h

theorem exists_bracedEscape (h : bracedEscape? r = some (u, n)) :
    ∃ w s, 'u' :: '{' :: r = w ++ s ∧ w.length = n ∧ EscapeSpan w u := by
  simp only [bracedEscape?, Bool.and_eq_true, beq_iff_eq, decide_eq_true_eq] at h
  split at h
  next hdigits =>
    obtain ⟨⟨hne, hclose⟩, hbound⟩ := hdigits
    cases h
    have hdigit : ∀ c ∈ r.takeWhile isHexDigit, isHexDigit c = true :=
      fun c hc ↦ List.mem_takeWhile_imp hc
    have hsplit := List.takeWhile_append_dropWhile (p := isHexDigit) (l := r)
    generalize r.takeWhile isHexDigit = digits at hclose hdigit hsplit ⊢
    generalize r.dropWhile isHexDigit = rest at hsplit
    subst hsplit
    rw [List.getElem?_append_right (Nat.le_refl _), Nat.sub_self, ← List.head?_eq_getElem?]
      at hclose
    obtain ⟨s, rfl⟩ := List.head?_eq_some_iff.1 hclose
    refine ⟨'u' :: '{' :: (digits ++ ['}']), s, by simp, by simp, .of_letters ?_ ?_ ?_⟩
    · simp only [List.mem_cons, List.mem_append, List.not_mem_nil, or_false]
      rintro c (rfl | rfl | hc | rfl)
      · decide
      · decide
      · exact ne_of_isHexDigit (hdigit c hc)
      · decide
    · have hunits := codeUnits_length_le (numeral 16 digits)
      simp
      omega
    · exact codeUnits_of_mem_slash
  · cases h

theorem exists_unicodeEscape (h : unicodeEscape? r = some (u, n)) :
    ∃ w s, 'u' :: r = w ++ s ∧ w.length = n ∧ EscapeSpan w u := by
  unfold unicodeEscape? at h
  split at h
  · exact exists_bracedEscape h
  next a b c d s _ =>
    split at h
    next hdigits =>
      cases h
      refine ⟨['u', a, b, c, d], s, rfl, rfl, .of_letters ?_ (by simp) (by simp [eq_comm])⟩
      refine List.forall_mem_cons.2 ⟨by decide, fun c hc ↦ ?_⟩
      exact ne_of_isHexDigit (List.all_eq_true.1 hdigits c hc)
    · cases h
  · cases h

theorem mem_of_lookup {α : Type} {a : α} {table : List (Char × α)} (h : table.lookup c = some a) :
    (c, a) ∈ table := by
  obtain ⟨before, after, heq, -⟩ := List.lookup_eq_some_iff.1 h
  rw [heq]
  exact List.mem_append_right before List.mem_cons_self

theorem escapeSpan_single {k : Nat} (h : singleEscapes.lookup c = some k) : EscapeSpan [c] [k] := by
  have hall : ∀ p ∈ singleEscapes, p.1 ≠ '&' ∧ (p.1 = '\\' → p.2 = 92) := by decide
  obtain ⟨hamp, hslash⟩ := hall (c, k) (mem_of_lookup h)
  refine ⟨⟨c, [], rfl, List.not_mem_nil, fun hc ↦ ⟨rfl, ?_⟩⟩, length_le_units [c], fun hk ↦ ?_⟩
  · rw [show k = 92 from hslash hc]
  · exact ⟨by simpa [eq_comm] using hk, by simpa using Ne.symm hamp⟩

theorem escapeSpan_self (hc : c ≠ '\\') : EscapeSpan [c] (codeUnits c.toNat) where
  head := ⟨c, [], rfl, List.not_mem_nil, fun h ↦ absurd h hc⟩
  short := by simp [units]
  slash h := by
    have hunits : codeUnits c.toNat = codeUnits ('\\' : Char).toNat := codeUnits_of_mem_slash h
    exact absurd (codeUnits_append_inj (a := []) (b := []) (congrArg (· ++ []) hunits)).1 hc

theorem exists_escapeSpan (h : escape? r = some (u, n)) :
    ∃ w s, r = w ++ s ∧ w.length = n ∧ EscapeSpan w u := by
  unfold escape? at h
  split at h
  · cases h
  next c s =>
  split at h
  next k hk =>
    cases h
    exact ⟨[c], s, rfl, rfl, escapeSpan_single hk⟩
  next hnone =>
  have hslash : c ≠ '\\' := by
    rintro rfl
    exact absurd hnone (by decide)
  split at h
  · split at h
    next hzero =>
      simp only [Bool.and_eq_true, beq_iff_eq] at hzero
      cases h
      refine ⟨[c], s, rfl, rfl, .of_letters ?_ (by simp) (by simp)⟩
      simp [hzero.1]
    · cases h
  split at h
  next hx =>
    rw [beq_iff_eq.1 hx]
    exact exists_hexEscape h
  split at h
  next hu =>
    rw [beq_iff_eq.1 hu]
    exact exists_unicodeEscape h
  split at h
  next hbreak =>
    simp only [Bool.and_eq_true, beq_iff_eq] at hbreak
    obtain ⟨rfl, hhead⟩ := hbreak
    obtain ⟨s, rfl⟩ := List.head?_eq_some_iff.1 hhead
    cases h
    exact ⟨['\r', '\n'], s, rfl, rfl, .of_letters (by simp) (by simp) (by simp)⟩
  split at h
  next hbreak =>
    cases h
    refine ⟨[c], s, rfl, rfl, .of_letters ?_ (by simp) (by simp)⟩
    refine List.forall_mem_singleton.2 ⟨hslash, ?_⟩
    rintro rfl
    exact absurd hbreak (by decide)
  · cases h
    exact ⟨[c], s, rfl, rfl, escapeSpan_self hslash⟩

/-- A text and its meaning, taken apart into what one step reads and the rest. -/
theorem meaning?_induction {P : Text → List Nat → Prop} (nil : P [] [])
    (plain : ∀ c r v, c ≠ '\\' → c ≠ '\r' → meaning? d r = some v → P r v →
      P (c :: r) (codeUnits c.toNat ++ v))
    (lineEnd : ∀ r u v, d = .backtick → u = [] ∨ u = [10] → meaning? d r = some v → P r v →
      P ('\r' :: r) (u ++ v))
    (escape : ∀ w s u v, EscapeSpan w u → escape? (w ++ s) = some (u, w.length) →
      meaning? d s = some v → P s v → P ('\\' :: w ++ s) (u ++ v))
    (h : meaning? d t = some v) : P t v := by
  induction hn : t.length using Nat.strong_induction_on generalizing t v with
  | _ n ih =>
    subst hn
    cases t with
    | nil =>
      cases h
      exact nil
    | cons c r =>
      rcases meaning?_cons h with ⟨hc, u, v, hplain, hrest, rfl⟩ | ⟨rfl, u, n, v, hread, hrest, rfl⟩
      · have hP := ih r.length (Nat.lt_succ_self _) hrest rfl
        rcases plain?_cases hplain with ⟨hbreak, rfl⟩ | ⟨rfl, hd, hu⟩
        · exact plain c r v hc hbreak hrest hP
        · exact lineEnd r u v hd hu hrest hP
      · obtain ⟨w, s, rfl, rfl, hspan⟩ := exists_escapeSpan hread
        rw [List.drop_left] at hrest
        refine escape w s u v hspan hread hrest (ih s.length ?_ hrest rfl)
        rw [List.length_cons, List.length_append]
        omega

/-- Without backslashes a literal in quotes means what it spells. -/
theorem units_of_not_mem_slash (hd : d ≠ .backtick) (h : meaning? d t = some v) (ht : '\\' ∉ t) :
    v = units t := by
  revert ht
  refine meaning?_induction (P := fun t v ↦ '\\' ∉ t → v = units t) ?nil ?plain ?lineEnd ?escape h
  case nil => exact fun _ ↦ rfl
  case plain =>
    intro c r v _ _ _ ih ht
    rw [units_cons, ih fun hr ↦ ht (List.mem_cons_of_mem c hr)]
  case lineEnd =>
    intro r u v hbacktick
    exact absurd hbacktick hd
  case escape =>
    intro w s u v _ _ _ _ ht
    exact absurd List.mem_cons_self ht

end Meaning

end ViewForge.Script
