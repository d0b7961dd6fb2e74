import ViewForge.Erb.Token

namespace ViewForge.Erb

open Text

/-- One attribute of a tag. A bare directive is its own name and has no value. -/
structure TagAttribute where
  name : Text
  value : Option Text := none
  quote : Char := '"'
  deriving DecidableEq, Repr

namespace TagAttribute

def isDirective (a : TagAttribute) : Bool := startsWith a.name "<%"

def render (a : TagAttribute) : Text :=
  match a.value with
  | none => a.name
  | some v => a.name ++ "=" ++ a.quote :: v ++ [a.quote]

end TagAttribute

structure Tag where
  name : Text
  attributes : List TagAttribute := []
  selfClosing : Bool := false
  closing : Bool := false
  deriving DecidableEq, Repr

namespace Tag

def get? (tag : Tag) (name : Text) : Option TagAttribute :=
  tag.attributes.find? (·.name == name)

def assign (name : Text) (value : Option Text) : List TagAttribute → List TagAttribute
  | [] => [{ name, value }]
  | a :: r => if a.name == name then { name := a.name, value } :: r else a :: assign name value r

def set (tag : Tag) (name : Text) (value : Option Text) : Tag :=
  { tag with attributes := assign name value tag.attributes }

def insert (tag : Tag) (index : Nat) (name : Text) (value : Option Text) : Tag :=
  { tag with
    attributes := tag.attributes.take index ++ { name, value } :: tag.attributes.drop index }

def erase (tag : Tag) (name : Text) : Tag :=
  { tag with attributes := tag.attributes.eraseP (·.name == name) }

def render (tag : Tag) : Text :=
  if tag.closing then "</" ++ tag.name ++ ">"
  else
    "<" ++ join " " (tag.name :: tag.attributes.map TagAttribute.render) ++
      (if tag.selfClosing then " />" else ">")

end Tag

def plainDirectiveLength (t : Text) : Nat :=
  match lengthThrough "%>" (t.drop 2) with
  | none => t.length
  | some n => n + 2

/-- How many characters a quoted value has. Directives in it are passed over whole. -/
def quotedLength (quote : Char) : Nat → Text → Nat
  | _, [] => 0
  | k + 1, _ :: r => quotedLength quote k r + 1
  | 0, c :: r =>
    if startsDirective (c :: r) then quotedLength quote (plainDirectiveLength (c :: r) - 1) r + 1
    else if c == quote then 0
    else quotedLength quote 0 r + 1

/-- What the body of a tag is made of after the name. -/
inductive TagPiece where
  | gap
  | slash
  | stray
  | attribute (a : TagAttribute)

def isAttributeNamePart (c : Char) : Bool := !(isBlank c || c == '=' || c == '/' || c == '>')

def attributePiece (t : Text) : TagPiece × Nat :=
  let name := t.takeWhile isAttributeNamePart
  let afterName := t.drop name.length
  match afterName.dropWhile isBlank with
  | '=' :: afterEquals =>
    let valueText := afterEquals.dropWhile isBlank
    let before := t.length - valueText.length
    match valueText with
    | c :: r =>
      if isQuote c then
        let n := quotedLength c 0 r
        (.attribute { name, value := some (r.take n), quote := c }, before + n + 2)
      else
        let value := valueText.takeWhile fun d ↦ !(isBlank d || d == '>')
        (.attribute { name, value := some value }, before + value.length)
    | [] => (.attribute { name, value := some [] }, before)
  | _ => (.attribute { name }, name.length)

def tagPiece (t : Text) : TagPiece × Nat :=
  match t with
  | [] => (.gap, 0)
  | c :: _ =>
    if isBlank c then (.gap, 1)
    else if c == '/' then (.slash, 1)
    else if startsDirective t then
      (.attribute { name := t.take (plainDirectiveLength t) }, plainDirectiveLength t)
    else if isAttributeNamePart c then attributePiece t
    else (.stray, 1)

def tagPiecesFrom : Nat → Text → List TagPiece
  | _, [] => []
  | k + 1, _ :: r => tagPiecesFrom k r
  | 0, c :: r =>
    let (piece, n) := tagPiece (c :: r)
    piece :: tagPiecesFrom (n - 1) r

def TagPiece.attribute? : TagPiece → Option TagAttribute
  | .attribute a => some a
  | _ => none

/-- A slash closes the tag unless an attribute or a stray character follows it. -/
def TagPiece.closes (closed : Bool) : TagPiece → Bool
  | .gap => closed
  | .slash => true
  | .stray => false
  | .attribute a => a.isDirective && closed

def parseTag (t : Text) : Tag :=
  if startsWith t "</" then
    { name := strip (trimRight (· == '>') (t.drop 2)), closing := true }
  else
    let body := if endsWith t ">" then (t.drop 1).dropLast else t.drop 1
    let name := body.takeWhile fun c ↦ !(isBlank c || c == '/' || c == '>')
    let pieces := tagPiecesFrom 0 (body.drop name.length)
    { name
      attributes := pieces.filterMap TagPiece.attribute?
      selfClosing := pieces.foldl TagPiece.closes false }

def rootTag? (template : Text) : Option Text :=
  ((tokenize template).find? (·.kind == .openTag)).map fun token ↦ (parseTag token.text).name

end ViewForge.Erb
