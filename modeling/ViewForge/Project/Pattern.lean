import ViewForge.Project.Path

namespace ViewForge.Project

open Text

def isWildcard (c : Char) : Bool := c == '*' || c == '?' || c == '['

def hasWildcard (t : Text) : Bool := t.any isWildcard

/-- The directory that a pattern is written in: what comes before its first wildcard, or the
parent of a path that has none. -/
def patternBase (pattern : Text) : Path :=
  let parts := (Path.ofText pattern).parts
  let fixed := parts.takeWhile (!hasWildcard ·)
  Path.ofParts (if fixed.length == parts.length then fixed.dropLast else fixed)

inductive NamePart where
  | anything
  | anyChar
  | char (c : Char)
  /-- A character of one of the ranges, or of none of them. -/
  | oneOf (negated : Bool) (ranges : List (Char × Char))
  deriving DecidableEq, Repr

/-- The ranges of a bracket: `a-z` is a range, any other character stands for itself. -/
def bracketRanges : Text → List (Char × Char)
  | [] => []
  | a :: '-' :: b :: r => (a, b) :: bracketRanges r
  | a :: r => (a, a) :: bracketRanges r

/-- What stands in a bracket and after it; a bracket right after the opening belongs to what
stands in it. -/
def splitBracket (t : Text) : Option (Text × Text) :=
  let lead := if t.head? == some '!' then 1 else 0
  let lead := if t[lead]? == some ']' then lead + 1 else lead
  (breakOn "]" (t.drop lead)).map fun (body, after) ↦ (t.take lead ++ body, after)

def namePartsFrom : Nat → Text → List NamePart
  | _, [] => []
  | k + 1, _ :: r => namePartsFrom k r
  | 0, c :: r =>
    if c == '*' then .anything :: namePartsFrom 0 r
    else if c == '?' then .anyChar :: namePartsFrom 0 r
    else if c == '[' then
      match splitBracket r with
      | none => .char c :: namePartsFrom 0 r
      | some (body, _) =>
        let part : NamePart :=
          match body with
          | '!' :: set => .oneOf true (bracketRanges set)
          | set => .oneOf false (bracketRanges set)
        part :: namePartsFrom (body.length + 1) r
    else .char c :: namePartsFrom 0 r

def NamePart.matchesChar (c : Char) : NamePart → Bool
  | .anything => false
  | .anyChar => true
  | .char d => c == d
  | .oneOf negated ranges => (ranges.any fun (a, b) ↦ a ≤ c && c ≤ b) != negated

def matchesParts : List NamePart → Text → Bool
  | [], [] => true
  | [], _ :: _ => false
  | .anything :: ps, t => matchesParts ps t || anySuffix ps t
  | p :: ps, t =>
    match t with
    | [] => false
    | c :: r => p.matchesChar c && matchesParts ps r
where
  /-- Some proper suffix of the name has the form. -/
  anySuffix (ps : List NamePart) : Text → Bool
    | [] => false
    | _ :: r => matchesParts ps r || anySuffix ps r

def isHidden (name : Text) : Bool := name.head? == some '.'

def matchesName (pattern name : Text) : Bool :=
  (isHidden pattern || !isHidden name) && matchesParts (namePartsFrom 0 pattern) name

end ViewForge.Project
