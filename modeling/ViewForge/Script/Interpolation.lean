import ViewForge.Script.Segment

namespace ViewForge.Script

open Text

def isOperandPart (c : Char) : Bool := isWord c || c == '.'

def operand (t : Text) : Text :=
  let sigil := if t.head? == some '@' then ['@'] else []
  match t.drop sigil.length with
  | c :: r => if isAsciiLetter c || c == '_' then sigil ++ c :: r.takeWhile isOperandPart else []
  | [] => []

/-- The literal that `t` begins with, if nothing in it is escaped or interpolated: what stands
between its quotes. -/
def simpleLiteral? : Text → Option Text
  | [] => none
  | q :: r =>
    if q == '"' || q == '\'' then
      let body := r.takeWhile fun c ↦ !(c == q || c == '\\' || c == '#')
      if r[body.length]? == some q then some body else none
    else none

def afterPlus? (t : Text) : Option Text :=
  match t.dropWhile isBlank with
  | '+' :: r => some (r.dropWhile isBlank)
  | _ => none

def interpolation (value : Text) : Text := "#\x7b" ++ value ++ "\x7d"

def quoteMarks (body : Text) : Text := body.flatMap fun c ↦ if c == '"' then ['\\', '"'] else [c]

/-- A literal, a plus sign and a value at the start of `t`: the interpolated string and the
length of what it replaces. -/
def literalThenValue? (t : Text) : Option (Text × Nat) := do
  let body ← simpleLiteral? t
  let rest ← afterPlus? (t.drop (body.length + 2))
  let value := operand rest
  if value.isEmpty then none
  else
    some ('"' :: quoteMarks body ++ interpolation value ++ ['"'],
      t.length - rest.length + value.length)

def valueThenLiteral? (t : Text) : Option (Text × Nat) := do
  let value := operand t
  if value.isEmpty then none
  else
    let rest ← afterPlus? (t.drop value.length)
    let body ← simpleLiteral? rest
    some ('"' :: interpolation value ++ quoteMarks body ++ ['"'],
      t.length - rest.length + body.length + 2)

/-- Writes `"label: " + value` and `value + " units"` as interpolated strings. -/
def interpolate (code : Text) : Text :=
  replaceBy valueThenLiteral? (replaceBy literalThenValue? code)

end ViewForge.Script
