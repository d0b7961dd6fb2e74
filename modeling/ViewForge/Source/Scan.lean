import ViewForge.Source.Tree

namespace ViewForge.Source

open Text

/-- A place in a source. `flawed` says that something before it could not be read. -/
structure Cursor where
  dialect : Dialect
  position : Nat
  rest : Text
  flawed : Bool := false

/-- A reader takes its part from the front of what is left, or fails and takes nothing. -/
abbrev Reader := StateT Cursor Option

/-- Where a stretch of white space and comments is. -/
inductive GapMode where
  | code
  | line
  | block
  deriving DecidableEq, Repr

def isGap (c : Char) : Bool :=
  (isBlank c && !(28 ≤ c.toNat && c.toNat ≤ 31)) || c.toNat == 0xFEFF || c.toNat == 0x2060 ||
    c.toNat == 0x200B

def gapLength : GapMode → Text → Nat
  | _, [] => 0
  | .code, '/' :: '/' :: r => gapLength .line r + 2
  | .code, '/' :: '*' :: r => gapLength .block r + 2
  | .code, c :: r => if isGap c then gapLength .code r + 1 else 0
  | .line, c :: r => gapLength (if c == '\n' then .code else .line) r + 1
  | .block, '*' :: '/' :: r => gapLength .code r + 2
  | .block, _ :: r => gapLength .block r + 1

namespace Reader

def isTyped : Reader Bool := do return (← get).dialect == .tsx

def position : Reader Nat := do return (← get).position

def rest : Reader Text := do return (← get).rest

def advance (n : Nat) : Reader Unit :=
  modify fun c ↦ { c with position := c.position + n, rest := c.rest.drop n }

/-- Passes over white space and comments and tells whether a line ended among them. -/
def skipGap : Reader Bool := do
  let r ← rest
  let n := gapLength .code r
  advance n
  return (r.take n).contains '\n'

def guardThat (b : Bool) : Reader Unit := if b then pure () else failure

/-- Succeeds without taking anything if the reader does. -/
def lookAhead {α : Type} (p : Reader α) : Reader α := do
  let c ← get
  let a ← p
  set c
  return a

def wouldRead {α : Type} (p : Reader α) : Reader Bool := (do let _ ← lookAhead p; pure true) <|> pure false

def attempt {α : Type} (p : Reader α) : Reader (Option α) := (some <$> p) <|> pure none

def exactly (t : Text) : Reader Unit := do
  guardThat (startsWith (← rest) t)
  advance t.length

def punct (t : String) : Reader Unit := do
  let _ ← skipGap
  exactly t.toList

def nextIs (t : String) : Reader Bool := wouldRead (punct t)

def manyUpTo {α : Type} (p : Reader α) : Nat → Reader (List α)
  | 0 => pure []
  | n + 1 => do
    let before ← position
    match ← attempt p with
    | none => pure []
    | some a => if (← position) == before then pure [] else return a :: (← manyUpTo p n)

def many {α : Type} (p : Reader α) : Reader (List α) := do manyUpTo p (← rest).length

def spanned (kind : Kind) (p : Reader (List Tree)) : Reader Tree := do
  let _ ← skipGap
  let start ← position
  let children ← p
  return .node kind .none start (← position) children

def noteFlaw : Reader Unit := modify fun c ↦ { c with flawed := true }

end Reader

open Reader

def isPunctuation (c : Char) : Bool :=
  ":;\"'@#.,|^&<=>+-*/\\%?!~()[]\x7b\x7d".toList.contains c || c.toNat == 96

def isIdentStart (c : Char) : Bool :=
  31 < c.toNat && !isGap c && !isPunctuation c && !isAsciiDigit c && c.toNat != 127

def isIdentPart (c : Char) : Bool := isIdentStart c || isAsciiDigit c

def wordOf (t : Text) : Text :=
  match t with
  | c :: r => if isIdentStart c then c :: r.takeWhile isIdentPart else []
  | [] => []

def reservedWords : List String :=
  ["break", "case", "catch", "class", "const", "continue", "debugger", "default", "delete", "do",
   "else", "enum", "export", "extends", "false", "finally", "for", "function", "if", "import", "in",
   "instanceof", "new", "null", "return", "super", "switch", "this", "throw", "true", "try",
   "typeof", "var", "void", "while", "with"]

namespace Reader

/-- The word that comes next, without taking it; empty if none does. -/
def peekWord : Reader Text := lookAhead do
  let _ ← skipGap
  return wordOf (← rest)

def word (w : String) : Reader Unit := do
  let _ ← skipGap
  guardThat (wordOf (← rest) == w.toList)
  advance w.length

def nextIsWord (w : String) : Reader Bool := do return (← peekWord) == w.toList

def anyWord (kind : Kind) : Reader Tree := spanned kind do
  let w := wordOf (← rest)
  guardThat (!w.isEmpty)
  advance w.length
  return []

def identifier (kind : Kind := .identifier) : Reader Tree := do
  let w ← peekWord
  guardThat (!reservedWords.any (·.toList == w))
  anyWord kind

end Reader

/-- The length of a string literal after its opening quote; it ends on its line. -/
def stringLength (quote : Char) : Text → Option Nat
  | [] => none
  | '\\' :: [] => none
  | '\\' :: _ :: r => (stringLength quote r).map (· + 2)
  | c :: r =>
    if c == quote then some 1
    else if c == '\n' then none
    else (stringLength quote r).map (· + 1)

def isScriptQuote (c : Char) : Bool := c == '"' || c == '\''

def stringLiteral : Reader Tree := spanned .string do
  match ← rest with
  | q :: r => do
    guardThat (isScriptQuote q)
    let some n := stringLength q r | failure
    advance (n + 1)
    return []
  | [] => failure

/-- The length of a regular expression after its opening slash, flags included; slashes in
brackets do not end it. -/
def regexLength (bracket : Bool) : Text → Option Nat
  | [] => none
  | '\\' :: [] => none
  | '\\' :: _ :: r => (regexLength bracket r).map (· + 2)
  | c :: r =>
    if c == '\n' then none
    else if c == '/' && !bracket then some ((r.takeWhile isAsciiLower).length + 1)
    else (regexLength (if c == '[' then true else if c == ']' then false else bracket) r).map (· + 1)

def regexLiteral : Reader Tree := spanned .regex do
  exactly ['/']
  let some n := regexLength false (← rest) | failure
  guardThat (1 < n)
  advance n
  return []

def isDigitOrSeparator (c : Char) : Bool := isAsciiDigit c || c == '_'

def exponentLength (t : Text) : Nat :=
  match t with
  | e :: r =>
    if e == 'e' || e == 'E' then
      let sign := if r.head? == some '+' || r.head? == some '-' then 1 else 0
      let digits := ((r.drop sign).takeWhile isDigitOrSeparator).length
      if digits == 0 then 0 else 1 + sign + digits
    else 0
  | [] => 0

/-- The length of the number that a text begins with; zero if it does not. -/
def numberLength (t : Text) : Nat :=
  match t with
  | '0' :: x :: r =>
    if "xXoObB".toList.contains x then 2 + (r.takeWhile isIdentPart).length else decimalLength t
  | _ => decimalLength t
where
  /-- Digits, a fraction and an exponent, or digits and the mark of a big integer. -/
  decimalLength (t : Text) : Nat :=
    let whole := (t.takeWhile isDigitOrSeparator).length
    let fraction :=
      match t.drop whole with
      | '.' :: r =>
        let digits := (r.takeWhile isDigitOrSeparator).length
        if whole == 0 && digits == 0 then 0 else digits + 1
      | _ => 0
    if whole + fraction == 0 then 0
    else if fraction == 0 && (t.drop whole).head? == some 'n' then whole + 1
    else whole + fraction + exponentLength (t.drop (whole + fraction))

def numberLiteral : Reader Tree := spanned .number do
  let n := numberLength (← rest)
  guardThat (n != 0 && (← rest).head?.any fun c ↦ isAsciiDigit c || c == '.')
  advance n
  return []

/-- The end of a statement: a semicolon, or none before a brace, a new line or the end. -/
def endOfStatement : Reader Unit := do
  let broken ← lookAhead skipGap
  (punct ";") <|> do
    let r ← lookAhead (do let _ ← skipGap; rest)
    guardThat (broken || r.isEmpty || r.head? == some '}')

end ViewForge.Source
