import ViewForge.Text.Letter

namespace ViewForge.Script

open Text

inductive Segment where
  | code (t : Text)
  | string (t : Text)
  | template (t : Text)
  deriving DecidableEq, Repr

def Segment.text : Segment → Text
  | .code t | .string t | .template t => t

/-- What a scan is inside of: a literal with its quote, or a substitution with the number of
its open braces. -/
inductive Inside where
  | literal (quote : Char)
  | braces (depth : Nat)
  deriving DecidableEq, Repr

def isLiteralQuote (c : Char) : Bool := c == '"' || c == '\'' || c.toNat == 96

def backtick : Char := Char.ofNat 96

/-- How many characters close everything the scan is inside of, innermost first; nothing if the
text ends before. -/
def closeLength : List Inside → Text → Option Nat
  | [], _ => some 0
  | _ :: _, [] => none
  | .literal _ :: _, '\\' :: [] => none
  | .literal q :: s, '\\' :: _ :: r => (closeLength (.literal q :: s) r).map (· + 2)
  | .literal q :: s, '$' :: '{' :: r =>
    (closeLength (if q == backtick then .braces 1 :: .literal q :: s else .literal q :: s) r).map
      (· + 2)
  | .literal q :: s, c :: r =>
    (closeLength (if c == q then s else .literal q :: s) r).map (· + 1)
  | .braces d :: s, c :: r =>
    if isLiteralQuote c then (closeLength (.literal c :: .braces d :: s) r).map (· + 1)
    else if c == '{' then (closeLength (.braces (d + 1) :: s) r).map (· + 1)
    else if c == '}' then
      (closeLength (if d ≤ 1 then s else .braces (d - 1) :: s) r).map (· + 1)
    else (closeLength (.braces d :: s) r).map (· + 1)

def consCode (c : Char) : List Segment → List Segment
  | .code t :: r => .code (c :: t) :: r
  | r => .code [c] :: r

/-- The segments of an expression from which `skip` characters of a literal already cut are
left. A literal that never closes takes all that is left. -/
def segmentsFrom : Nat → Text → List Segment
  | _, [] => []
  | k + 1, _ :: r => segmentsFrom k r
  | 0, c :: r =>
    if isLiteralQuote c then
      let n := (closeLength [.literal c] r).getD r.length
      let literal := c :: r.take n
      (if c == backtick then .template literal else .string literal) :: segmentsFrom n r
    else consCode c (segmentsFrom 0 r)

def segments (code : Text) : List Segment := segmentsFrom 0 code

/-- What the body of a template literal is made of. -/
inductive Part where
  | fixed (t : Text)
  | substitution (code : Text)
  deriving DecidableEq, Repr

def consFixed (t : Text) : List Part → List Part
  | .fixed u :: r => .fixed (t ++ u) :: r
  | r => .fixed t :: r

/-- The parts of a body from which `skip` characters are left. An escaped character never
starts a substitution. -/
def partsFrom : Nat → Text → List Part
  | _, [] => []
  | k + 1, _ :: r => partsFrom k r
  | 0, c :: r =>
    if startsWith (c :: r) "$\x7b" then
      match closeLength [.braces 1] (r.drop 1) with
      | some n => .substitution ((r.drop 1).take (n - 1)) :: partsFrom (n + 1) r
      | none => [.substitution (r.drop 1)]
    else if c == '\\' then consFixed (c :: r.take 1) (partsFrom 1 r)
    else consFixed [c] (partsFrom 0 r)

/-- The body of a template literal, without its backticks. -/
def templateBody (literal : Text) : Text :=
  match literal.drop 1 with
  | [] => []
  | body => if body.getLast? == some backtick then body.dropLast else body

def templateParts (literal : Text) : List Part := partsFrom 0 (templateBody literal)

theorem mem_of_mem_consFixed {t code : Text} {parts : List Part}
    (h : Part.substitution code ∈ consFixed t parts) : Part.substitution code ∈ parts := by
  unfold consFixed at h
  split at h <;> simp_all

/-- A substitution is shorter than the body it stands in. -/
theorem length_lt_of_mem_partsFrom {code : Text} {k : Nat} {t : Text}
    (h : Part.substitution code ∈ partsFrom k t) : code.length < t.length := by
  induction t generalizing k with
  | nil => cases k <;> simp [partsFrom] at h
  | cons c r ih =>
    cases k with
    | succ k =>
      have := ih (k := k) (by simpa [partsFrom] using h)
      simp only [List.length_cons]
      omega
    | zero =>
      rw [partsFrom] at h
      split at h
      · split at h
        · rcases List.mem_cons.1 h with h | h
          · cases h
            simp only [List.length_take, List.length_drop, List.length_cons]
            omega
          · have := ih h
            simp only [List.length_cons]
            omega
        · simp only [List.mem_singleton] at h
          cases h
          simp only [List.length_drop, List.length_cons]
          omega
      · split at h <;>
        · have := ih (mem_of_mem_consFixed h)
          simp only [List.length_cons]
          omega

theorem length_templateBody_le (literal : Text) : (templateBody literal).length ≤ literal.length := by
  have hdrop : (literal.drop 1).length ≤ literal.length :=
    (List.drop_sublist 1 literal).length_le
  unfold templateBody
  split
  · exact Nat.zero_le _
  · split
    · rw [List.length_dropLast]
      omega
    · exact hdrop

theorem length_lt_of_mem_templateParts {code literal : Text}
    (h : Part.substitution code ∈ templateParts literal) : code.length < literal.length := by
  have := length_lt_of_mem_partsFrom h
  have := length_templateBody_le literal
  omega

theorem mem_consCode {c : Char} {s : Segment} {l : List Segment}
    (h : s ∈ consCode c l) : s ∈ l ∨ ∃ t, s = .code t := by
  unfold consCode at h
  split at h <;> rcases List.mem_cons.1 h with h | h
  · exact .inr ⟨_, h⟩
  · exact .inl (List.mem_cons_of_mem _ h)
  · exact .inr ⟨_, h⟩
  · exact .inl h

/-- A literal is no longer than the expression it stands in. -/
theorem length_le_of_mem_segmentsFrom {t : Text} {k : Nat} {code : Text}
    (h : Segment.template t ∈ segmentsFrom k code) : t.length ≤ code.length := by
  induction code generalizing k with
  | nil => cases k <;> simp [segmentsFrom] at h
  | cons c r ih =>
    cases k with
    | succ k =>
      have := ih (k := k) (by simpa [segmentsFrom] using h)
      simp only [List.length_cons]
      omega
    | zero =>
      rw [segmentsFrom] at h
      split at h
      · rcases List.mem_cons.1 h with h | h
        · split at h
          · cases h
            simp only [List.length_take, List.length_cons]
            omega
          · cases h
        · have := ih h
          simp only [List.length_cons]
          omega
      · rcases mem_consCode h with h | ⟨u, hu⟩
        · have := ih h
          simp only [List.length_cons]
          omega
        · cases hu

end ViewForge.Script
