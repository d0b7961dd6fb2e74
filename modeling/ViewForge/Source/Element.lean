import ViewForge.Source.TypeGrammar
import ViewForge.Text.Entity

namespace ViewForge.Source

open Text Reader

variable (self : Parts)

def tagWord (kind : Kind) : Reader Tree := spanned kind do
  let t ← rest
  guardThat (t.head?.any isIdentStart)
  advance (t.takeWhile fun c ↦ isIdentPart c || c == '-').length
  return []

def tagMembers : Nat → Tree → Reader Tree
  | 0, first => pure first
  | n + 1, first => do
    match ← attempt (do punct "."; tagWord .propertyIdentifier) with
    | none => pure first
    | some property =>
      tagMembers n (.node .member .none first.start property.stop
        [first.withRole .object, property.withRole .property])

def namespacedWord (kind : Kind) : Reader Tree := do
  let first ← tagWord kind
  match ← attempt (do punct ":"; tagWord kind) with
  | none => return first
  | some second => return .node .namespaceName .none first.start second.stop [first, second]

def tagName : Reader Tree := do
  let first ← namespacedWord .identifier
  if first.kind == .identifier then tagMembers (← rest).length first else return first

def container : Reader Tree := spanned .container do
  punct "\x7b"
  let inner ← ifPresent (do
    return [← spanned .spread (do punct "..."; return [← self.value]) <|> self.anyValue])
  punct "\x7d"
  return inner

def attributeString : Reader Tree := spanned .string do
  match ← rest with
  | q :: r => do
    guardThat (isScriptQuote q && r.contains q)
    advance ((r.takeWhile (· != q)).length + 2)
    return []
  | [] => failure

def markupAttribute : Reader Tree :=
  container self
    <|> spanned .attribute (do
      let name ← namespacedWord .propertyIdentifier
      let value ← ifPresent (do
        punct "="
        let value ← attributeString <|> container self <|> self .element
        return [value.withRole .value])
      return name.withRole .name :: value)

/-- What a tag holds between its angle brackets; a fragment has nothing there. -/
def tagContents : Reader (List Tree) := ifPresent do
  let name ← tagName
  let types ← ifPresent (do typedOnly; typeArguments self)
  return [name.withRole .name] ++ types ++ (← many (markupAttribute self))

def closingTag : Reader Tree := spanned .closingTag do
  punct "<"
  punct "/"
  let name ← ifPresent (do return [(← tagName).withRole .name])
  punct ">"
  return name

def referenceLength? (t : Text) : Option Nat :=
  let closed (start : Nat) (limit : Nat) (p : Char → Bool) : Option Nat :=
    let body := (t.drop start).takeWhile p
    if body.isEmpty || limit < body.length || (t.drop (start + body.length)).head? != some ';'
    then none else some (start + body.length + 1)
  match t with
  | '&' :: '#' :: x :: _ =>
    if x == 'x' || x == 'X' then closed 3 6 isHexDigit else closed 2 5 isAsciiDigit
  | '&' :: _ => closed 1 30 isAsciiLetter
  | _ => none

def endsText (c : Char) : Bool := "<>\x7b\x7d&".toList.contains c

def stretch (kind : Kind) (n : Nat) : Reader Tree := do
  let start ← position
  advance n
  return .node kind .none start (start + n) []

/-- A mark that text must not hold, with the text behind it. -/
def strayText (t : Text) : Reader Tree := do
  noteFlaw
  stretch .error (1 + (t.tail.takeWhile fun c ↦ c != '<' && c != '{').length)

def contentItem (t : Text) : Reader Tree :=
  match t with
  | [] => failure
  | '<' :: _ => closingTag <|> self .element
  | '{' :: _ => container self
  | c :: _ =>
    if let some n := referenceLength? t then stretch .characterReference n
    else if endsText c then strayText t
    else stretch .text (t.takeWhile (!endsText ·)).length

def contentUpTo : Nat → Reader (List Tree)
  | 0 => failure
  | n + 1 => do
    let next ← contentItem self (← rest)
    if next.kind == .closingTag then return [next] else return next :: (← contentUpTo n)

def elementRule : Reader Tree := do
  let _ ← skipGap
  let start ← position
  punct "<"
  let inside ← tagContents self
  if ← nextIs "/" then
    punct "/"
    punct ">"
    return .node .selfClosingElement .none start (← position) inside
  else
    punct ">"
    let tag : Tree := .node .openingTag .none start (← position) inside
    let content ← contentUpTo self ((← rest).length + 1)
    return .node .element .none start (← position) (tag :: content)

end ViewForge.Source
