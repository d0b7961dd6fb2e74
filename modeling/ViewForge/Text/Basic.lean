namespace ViewForge

/-- Text is held as its characters, so that scanners recurse on it and proofs induct on it. -/
abbrev Text := List Char

instance : Coe String Text := ⟨String.toList⟩

namespace Text

/-- White space: the ASCII separators, the line and paragraph separators and every space of a
fixed width. -/
def isBlank (c : Char) : Bool :=
  let n := c.toNat
  (9 ≤ n && n ≤ 13) || (28 ≤ n && n ≤ 32) || n == 0x85 || n == 0xA0 || n == 0x1680 ||
    (0x2000 ≤ n && n ≤ 0x200A) || n == 0x2028 || n == 0x2029 || n == 0x202F || n == 0x205F ||
    n == 0x3000

def trimLeft (p : Char → Bool) (t : Text) : Text := t.dropWhile p

def trimRight (p : Char → Bool) : Text → Text
  | [] => []
  | c :: r =>
    match trimRight p r with
    | [] => if p c then [] else [c]
    | s => c :: s

def trim (p : Char → Bool) (t : Text) : Text := trimRight p (trimLeft p t)

def strip (t : Text) : Text := trim isBlank t

def isBlankText (t : Text) : Bool := t.all isBlank

/-- The pieces between the characters that satisfy `p`; one more than there are separators. -/
def splitBy (p : Char → Bool) : Text → List Text
  | [] => [[]]
  | c :: r =>
    match splitBy p r with
    | [] => [[c]]
    | h :: t => if p c then [] :: h :: t else (c :: h) :: t

def splitOn (sep : Char) (t : Text) : List Text := splitBy (· == sep) t

def lines (t : Text) : List Text := splitOn '\n' t

/-- The maximal runs of characters that are not white space. -/
def words (t : Text) : List Text := (splitBy isBlank t).filter (!·.isEmpty)

def join (sep : Text) (ts : List Text) : Text := sep.intercalate ts

def unlines (ts : List Text) : Text := join ['\n'] ts

/-- Splits at the first occurrence of `pat`: what stands before it and what stands after it. -/
def breakOn (pat : Text) : Text → Option (Text × Text)
  | [] => if pat.isEmpty then some ([], []) else none
  | c :: r =>
    if pat.isPrefixOf (c :: r) then some ([], (c :: r).drop pat.length)
    else (breakOn pat r).map fun (a, b) ↦ (c :: a, b)

def occursIn (pat t : Text) : Bool := (breakOn pat t).isSome

/-- The pieces of a text between the occurrences of a separator, read from the left; `skip`
characters of a separator already seen are passed over. -/
def splitOnTextFrom (sep : Text) : Nat → Text → List Text
  | _, [] => [[]]
  | k + 1, _ :: r => splitOnTextFrom sep k r
  | 0, c :: r =>
    if sep.isPrefixOf (c :: r) then [] :: splitOnTextFrom sep (sep.length - 1) r
    else
      match splitOnTextFrom sep 0 r with
      | [] => [[c]]
      | h :: t => (c :: h) :: t

def splitOnText (sep t : Text) : List Text := splitOnTextFrom sep 0 t

/-- Every occurrence of `pat`, read from the left without overlap, becomes `new`. -/
def replace (pat new t : Text) : Text := join new (splitOnText pat t)

def occurrences (pat : Text) : Text → Nat
  | [] => 0
  | c :: r => (if pat.isPrefixOf (c :: r) then 1 else 0) + occurrences pat r

def startsWith (t pat : Text) : Bool := pat.isPrefixOf t

def endsWith (t pat : Text) : Bool := pat.reverse.isPrefixOf t.reverse

def joinLinesFrom : Nat → Text → Text
  | _, [] => []
  | k + 1, _ :: r => joinLinesFrom k r
  | 0, c :: r =>
    let gap := (c :: r).takeWhile isBlank
    if gap.contains '\n' then ' ' :: joinLinesFrom (gap.length - 1) r else c :: joinLinesFrom 0 r

def joinLines (t : Text) : Text := joinLinesFrom 0 t

/-- Applies a rule wherever it fits, from the left; `skip` characters of what it replaced are
left. -/
def replaceByFrom (rule : Text → Option (Text × Nat)) : Nat → Text → Text
  | _, [] => []
  | k + 1, _ :: r => replaceByFrom rule k r
  | 0, c :: r =>
    match rule (c :: r) with
    | some (new, n) => new ++ replaceByFrom rule (n - 1) r
    | none => c :: replaceByFrom rule 0 r

/-- Changes a text by a rule that says, of what a position begins with, what it becomes and how
many characters that takes. -/
def replaceBy (rule : Text → Option (Text × Nat)) (t : Text) : Text := replaceByFrom rule 0 t

def ofNat (n : Nat) : Text := Nat.toDigits 10 n

end Text

end ViewForge
