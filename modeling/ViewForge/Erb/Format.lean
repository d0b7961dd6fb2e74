import ViewForge.Erb.Tag
import ViewForge.Erb.Directive

namespace ViewForge.Erb

open Text

/-- A directive on one line with one space inside each delimiter; the trim mark `-` goes. -/
def spacedDirective (marker code : Text) : Text :=
  let code := strip (joinLines code)
  let marker := if marker == ['-'] then [] else marker
  "<%" ++ marker ++ " " ++ (if code.isEmpty then [] else code ++ [' ']) ++ "%>"

def formatMarkers : Text := "=#-"

def normalizeDirective (t : Text) : Text :=
  match wholeBody? t with
  | none => t
  | some body =>
    let (marker, code) := marked formatMarkers body
    spacedDirective marker code

def isInlineSpace (c : Char) : Bool := c == ' ' || c == '\t' || c == '\x0c' || c == '\x0b'

/-- A line break takes the spaces and tabs before it and all white space after it. -/
def shrinkBreaksFrom : Nat → Text → Text
  | _, [] => []
  | k + 1, _ :: r => shrinkBreaksFrom k r
  | 0, c :: r =>
    let indent := (c :: r).takeWhile fun d ↦ d == ' ' || d == '\t'
    match (c :: r).drop indent.length with
    | '\n' :: after =>
      '\n' :: shrinkBreaksFrom (indent.length + (after.takeWhile isBlank).length) r
    | _ => c :: shrinkBreaksFrom 0 r

/-- A run of inline spaces becomes one space; `inRun` says that a run is being passed over. -/
def shrinkSpacesFrom (inRun : Bool) : Text → Text
  | [] => []
  | c :: r =>
    if isInlineSpace c then
      if inRun then shrinkSpacesFrom true r else ' ' :: shrinkSpacesFrom true r
    else c :: shrinkSpacesFrom false r

def formatText (t : Text) : Text := shrinkSpacesFrom false (shrinkBreaksFrom 0 t)

def formatAttribute (a : TagAttribute) : TagAttribute :=
  if a.isDirective then { a with name := normalizeDirective a.name }
  else { a with value := a.value.map (mapDirectives formatMarkers spacedDirective) }

def formatTag (t : Text) : Text :=
  let tag := parseTag t
  { tag with attributes := tag.attributes.map formatAttribute }.render

def formatToken (token : Token) : Text :=
  match token.kind with
  | .text => formatText token.text
  | .openTag | .closeTag => formatTag token.text
  | .htmlComment => token.text
  | .comment | .output | .code => normalizeDirective token.text

def tidyLines (t : Text) : Text :=
  unlines (((lines t).map (trimRight isBlank)).filter (!isBlankText ·)) ++ "\n"

def format (template : Text) : Text := tidyLines ((tokenize template).flatMap formatToken)

end ViewForge.Erb
