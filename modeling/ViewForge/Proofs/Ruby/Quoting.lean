import Mathlib.Data.List.Infix
import ViewForge.Ruby.Literal
import ViewForge.Text.Letter

namespace ViewForge.Ruby

open Text

inductive LiteralFault where
  | unopened
  | unclosed
  | unknownEscape
  | interpolation
  deriving DecidableEq, Repr

def namesVariable : Text → Bool
  | c :: d :: _ => (c == '@' || c == '$') && (isLetter d || d == '_')
  | _ => false

def startsInterpolation (r : Text) : Bool := r.head? == some '{' || namesVariable r

/-- Reads a literal from behind its opening quote: its value, and what stands after it. -/
def readQuoted : Text → Except LiteralFault (Text × Text)
  | [] => .error .unclosed
  | '"' :: r => .ok ([], r)
  | ['\\'] => .error .unclosed
  | '\\' :: d :: r =>
    if d == '\\' || d == '"' || d == '#' then (readQuoted r).map fun (v, s) ↦ (d :: v, s)
    else .error .unknownEscape
  | c :: r =>
    if c == '#' && startsInterpolation r then .error .interpolation
    else (readQuoted r).map fun (v, s) ↦ (c :: v, s)

def readString : Text → Except LiteralFault (Text × Text)
  | '"' :: r => readQuoted r
  | _ => .error .unopened

def Interpolates (v : Text) : Prop := ∃ r, '#' :: r <:+ v ∧ namesVariable r = true

section Reading

variable {c d : Char} {r v : Text}

theorem readQuoted_escaped (h : d = '\\' ∨ d = '"' ∨ d = '#') (r : Text) :
    readQuoted ('\\' :: d :: r) = (readQuoted r).map fun (v, s) ↦ (d :: v, s) := by
  rcases h with rfl | rfl | rfl <;> rfl

theorem readQuoted_plain (hquote : c ≠ '"') (hslash : c ≠ '\\') (r : Text) :
    readQuoted (c :: r) = if c = '#' ∧ startsInterpolation r = true then .error .interpolation
      else (readQuoted r).map fun (v, s) ↦ (c :: v, s) := by
  rw [readQuoted]
  · simp
  · exact hquote
  · rintro rfl rfl
    exact hslash rfl
  · rintro d s rfl rfl
    exact hslash rfl

def isEscaped (c : Char) (r : Text) : Bool :=
  c == '\\' || c == '"' || (c == '#' && r.head? == some '{')

theorem escape_cons (c : Char) (r : Text) :
    escape (c :: r) = if isEscaped c r then '\\' :: c :: escape r else c :: escape r := by
  by_cases hsign : c = '#' ∧ r.head? = some '{'
  · obtain ⟨rfl, hhead⟩ := hsign
    obtain ⟨s, rfl⟩ := List.head?_eq_some_iff.1 hhead
    rfl
  · have hbrace : (c == '#' && r.head? == some '{') = false := by simpa using hsign
    rw [isEscaped, hbrace, Bool.or_false, escape]
    rintro s rfl rfl
    exact hsign ⟨rfl, rfl⟩

theorem isEscaped_cases (h : isEscaped c r = true) : c = '\\' ∨ c = '"' ∨ c = '#' := by
  simp only [isEscaped, Bool.or_eq_true, Bool.and_eq_true, beq_iff_eq] at h
  tauto

theorem not_isLetter_of_isEscaped (h : isEscaped c r = true) :
    c ≠ '@' ∧ c ≠ '$' ∧ (isLetter c || c == '_') = false := by
  rcases isEscaped_cases h with rfl | rfl | rfl <;> decide

/-- Escapes neither hide the name of a variable nor make one. -/
theorem namesVariable_escape (r rest : Text) :
    namesVariable (escape r ++ '"' :: rest) = namesVariable r := by
  cases r with
  | nil => cases rest <;> rfl
  | cons c r =>
    rw [escape_cons]
    split
    next h =>
      obtain ⟨hat, hdollar, -⟩ := not_isLetter_of_isEscaped h
      cases r <;> simp [namesVariable, hat, hdollar]
    next =>
      cases r with
      | nil => simp [escape, namesVariable, show isLetter '"' = false by decide]
      | cons d r =>
        rw [escape_cons]
        split
        next h =>
          have hletter := (not_isLetter_of_isEscaped h).2.2
          simp [namesVariable, hletter, show isLetter '\\' = false by decide]
        next => rfl

theorem startsInterpolation_escape (h : r.head? ≠ some '{') (rest : Text) :
    startsInterpolation (escape r ++ '"' :: rest) = namesVariable r := by
  have hhead : (escape r ++ '"' :: rest).head? ≠ some '{' := by
    cases r with
    | nil => simp [escape]
    | cons c r =>
      rw [escape_cons]
      split
      · simp
      · simpa using h
  rw [startsInterpolation, namesVariable_escape, beq_false_of_ne hhead, Bool.false_or]

theorem interpolates_cons : Interpolates (c :: v) ↔
    (c = '#' ∧ namesVariable v = true) ∨ Interpolates v := by
  simp only [Interpolates, List.suffix_cons_iff]
  constructor
  · rintro ⟨r, heq | hr, hname⟩
    · obtain ⟨rfl, rfl⟩ := List.cons.inj heq
      exact .inl ⟨rfl, hname⟩
    · exact .inr ⟨r, hr, hname⟩
  · rintro (⟨rfl, hname⟩ | ⟨r, hr, hname⟩)
    · exact ⟨v, .inl rfl, hname⟩
    · exact ⟨r, .inr hr, hname⟩

theorem not_interpolates_nil : ¬Interpolates [] := by
  rintro ⟨r, hr, -⟩
  exact absurd (List.suffix_nil.1 hr) (List.cons_ne_nil _ _)

instance decidableInterpolates : (v : Text) → Decidable (Interpolates v)
  | [] => isFalse not_interpolates_nil
  | _ :: v =>
    have := decidableInterpolates v
    decidable_of_iff _ interpolates_cons.symm

/-- A literal is read back to its closing quote, unless a variable is interpolated before it. -/
theorem readQuoted_escape (v rest : Text) :
    readQuoted (escape v ++ '"' :: rest) =
      if Interpolates v then .error .interpolation else .ok (v, rest) := by
  induction v with
  | nil =>
    rw [if_neg not_interpolates_nil]
    rfl
  | cons c v ih =>
    have hmore (h : ¬(c = '#' ∧ namesVariable v = true)) :
        ((readQuoted (escape v ++ '"' :: rest)).map fun (w, s) ↦ (c :: w, s)) =
          if Interpolates (c :: v) then .error .interpolation else .ok (c :: v, rest) := by
      simp only [ih, interpolates_cons, h, false_or]
      split <;> rfl
    rw [escape_cons]
    split
    next h =>
      rw [List.cons_append, List.cons_append, readQuoted_escaped (isEscaped_cases h)]
      apply hmore
      -- A brace behind the number sign is not the name of a variable.
      rintro ⟨rfl, hname⟩
      have hbrace : v.head? = some '{' := by simpa [isEscaped] using h
      obtain ⟨s, rfl⟩ := List.head?_eq_some_iff.1 hbrace
      cases s <;> simp [namesVariable] at hname
    next h =>
      simp only [isEscaped, Bool.or_eq_true, not_or, Bool.not_eq_true, beq_eq_false_iff_ne] at h
      obtain ⟨⟨hslash, hquote⟩, hbrace⟩ := h
      have hstart : (c = '#' ∧ startsInterpolation (escape v ++ '"' :: rest) = true) ↔
          (c = '#' ∧ namesVariable v = true) := by
        refine and_congr_right fun hc ↦ ?_
        rw [startsInterpolation_escape (by simpa [hc] using hbrace)]
      rw [List.cons_append, readQuoted_plain hquote hslash]
      simp only [hstart]
      split
      next hname => rw [if_pos (interpolates_cons.2 (.inl hname))]
      next hname => exact hmore hname

end Reading

/-- Reading the literal of a text gives the text, and nothing is left over, just if no number sign
of it stands before the name of a variable; otherwise the literal holds an interpolation. -/
theorem readString_quoted_iff (v : Text) :
    (readString (quoted v) = .ok (v, []) ↔ ¬Interpolates v) ∧
    (readString (quoted v) = .error .interpolation ↔ Interpolates v) := by
  have hread : readString (quoted v) = readQuoted (escape v ++ ['"']) := rfl
  rw [hread, readQuoted_escape]
  split
  next hv => simp [hv]
  next hv => simp [hv]

/-- An address behind a number sign is taken for an instance variable. -/
theorem readString_quoted_address :
    quoted "ping #@ops" = "\"ping #@ops\"" ∧
    readString (quoted "ping #@ops") = .error .interpolation := by
  decide

end ViewForge.Ruby
