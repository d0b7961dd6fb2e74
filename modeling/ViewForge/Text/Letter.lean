import ViewForge.Text.CodePoint

namespace ViewForge.Text

def inRanges (rs : List (Nat × Nat)) (c : Char) : Bool :=
  rs.any fun r ↦ r.1 ≤ c.toNat && c.toNat ≤ r.2

def isAsciiUpper (c : Char) : Bool := 'A' ≤ c && c ≤ 'Z'

def isAsciiLower (c : Char) : Bool := 'a' ≤ c && c ≤ 'z'

def isAsciiLetter (c : Char) : Bool := isAsciiUpper c || isAsciiLower c

def isAsciiDigit (c : Char) : Bool := '0' ≤ c && c ≤ '9'

def isLetter (c : Char) : Bool :=
  if c.toNat < 128 then isAsciiLetter c else inRanges letterRanges c

def isDigit (c : Char) : Bool :=
  if c.toNat < 128 then isAsciiDigit c else inRanges digitRanges c

def isWord (c : Char) : Bool :=
  c == '_' || isLetter c || isDigit c || (128 ≤ c.toNat && inRanges numeralRanges c)

def isNamePart (c : Char) : Bool := isWord c || c == '$'

/-- The first character of a name: an ASCII letter, an underscore or a dollar sign. -/
def isNameStart (c : Char) : Bool := isAsciiLetter c || c == '_' || c == '$'

def isIdentifierStart (c : Char) : Bool :=
  if c.toNat < 128 then isAsciiLetter c || c == '_'
  else inRanges identifierStarts c || (isLetter c && !inRanges barredStarts c)

def isIdentifierContinue (c : Char) : Bool :=
  if c.toNat < 128 then isAsciiLetter c || isAsciiDigit c || c == '_'
  else inRanges identifierParts c || ((isLetter c || isDigit c) && !inRanges barredParts c)

def isIdentifier : Text → Bool
  | [] => false
  | c :: r => isIdentifierStart c && r.all isIdentifierContinue

def CaseRun.shift? (run : CaseRun) (c : Char) : Option Int :=
  if run.first ≤ c.toNat && c.toNat ≤ run.last && (c.toNat - run.first) % run.step == 0 then
    some run.shift
  else none

def shiftCase (runs : List CaseRun) (c : Char) : Option Char :=
  (runs.findSome? (·.shift? c)).map fun s ↦ Char.ofNat (Int.toNat (c.toNat + s))

def lowerChar (c : Char) : Char :=
  if isAsciiUpper c then Char.ofNat (c.toNat + 32)
  else if c.toNat < 128 then c
  else (shiftCase toLowerRuns c).getD c

def upperChar (c : Char) : Char :=
  if isAsciiLower c then Char.ofNat (c.toNat - 32)
  else if c.toNat < 128 then c
  else (shiftCase toUpperRuns c).getD c

def isUpper (c : Char) : Bool :=
  if c.toNat < 128 then isAsciiUpper c
  else
    c.toNat == 0x130 || ((shiftCase toLowerRuns c).isSome && !inRanges titleRanges c) ||
      inRanges unpairedCapitals c

def isCased (c : Char) : Bool :=
  if c.toNat < 128 then isAsciiLetter c else inRanges casedRanges c

/-- Marks that a word may hold between two letters without ending. -/
def isCaseIgnorable (c : Char) : Bool :=
  if c.toNat < 128 then c == '\'' || c == '.' || c == ':' || c == '^' || c.toNat == 0x60
  else inRanges caseIgnorableRanges c

def goesOn (t : Text) : Bool :=
  match t.dropWhile isCaseIgnorable with
  | [] => false
  | c :: _ => isCased c

/-- Lower case of a text. A capital sigma takes its final form at the end of a word: `inWord`
says that a cased letter stands before it. -/
def lowerFrom (inWord : Bool) : Text → Text
  | [] => []
  | c :: r =>
    let next := isCased c || (inWord && isCaseIgnorable c)
    if c == 'Σ' then (if inWord && !goesOn r then 'ς' else 'σ') :: lowerFrom next r
    else if c == 'İ' then 'i' :: Char.ofNat 0x307 :: lowerFrom next r
    else lowerChar c :: lowerFrom next r

def lower (t : Text) : Text := lowerFrom false t

def upperLetter (c : Char) : Text :=
  match wideCapitals.lookup c.toNat with
  | some t => t
  | none => [upperChar c]

def capitalize : Text → Text
  | [] => []
  | c :: r => upperLetter c ++ r

end ViewForge.Text
