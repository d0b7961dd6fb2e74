import ViewForge.Source.Scan

namespace ViewForge.Source

open Text Reader

/-- Where an expression stands: in the head of a loop `in` is no operator, and before the colon
of a conditional expression a parameter list has no result type. -/
structure Context where
  noIn : Bool := false
  untyped : Bool := false

inductive Rule where
  | statement
  | block
  | expression (context : Context)
  | assignment (context : Context)
  | binary (level : Nat) (context : Context)
  | unary
  | pattern
  | parameters
  | type
  | element

abbrev Parts := Rule → Reader Tree

def Parts.value (self : Parts) : Reader Tree := self (.assignment {})

def Parts.anyValue (self : Parts) : Reader Tree := self (.expression {})

namespace Reader

/-- Items with commas between, up to the closing mark; an item may be missing. -/
def itemsUpTo (close : String) (item : Reader Tree) : Nat → Reader (List Tree)
  | 0 => failure
  | n + 1 => do
    if ← nextIs close then
      punct close
      return []
    else if ← nextIs "," then
      punct ","
      itemsUpTo close item n
    else
      let t ← item
      if ← nextIs "," then
        punct ","
        return t :: (← itemsUpTo close item n)
      else
        punct close
        return [t]

def items (close : String) (item : Reader Tree) : Reader (List Tree) := do
  itemsUpTo close item ((← rest).length + 1)

def ifPresent (p : Reader (List Tree)) : Reader (List Tree) := p <|> pure []

def continued (kind : Kind) (first : Tree) (p : Reader (List Tree)) : Reader Tree := do
  let more ← p
  return .node kind .none first.start (← position) (first :: more)

def marked (kind : Kind) (p : Reader Unit) : Reader Tree := spanned kind do
  p
  return []

/-- Fails unless the next part stands on the same line. -/
def sameLine : Reader Unit := do guardThat !(← lookAhead skipGap)

def typedOnly : Reader Unit := do guardThat (← isTyped)

def oneOfWords (words : List String) : Reader Unit := do
  let w ← peekWord
  guardThat (words.any (·.toList == w))
  let _ ← anyWord .operator

end Reader

end ViewForge.Source
