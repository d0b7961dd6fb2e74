import ViewForge.Template.Binding
import ViewForge.Erb.Directive
import ViewForge.Script.Interpolation

namespace ViewForge.Template

open Text Erb

def codeMarkers : Text := "=#"

def changeDirective (f : Text → Text) (marker code : Text) : Text :=
  if marker == "#" then "<%# " ++ code ++ " %>" else "<%" ++ marker ++ " " ++ f code ++ " %>"

def mapAttributeCode (f : Text → Text) (a : TagAttribute) : TagAttribute :=
  if a.isDirective then { a with name := mapDirectives codeMarkers (changeDirective f) a.name }
  else { a with value := a.value.map (mapDirectives codeMarkers (changeDirective f)) }

def mapTokenCode (f : Text → Text) (token : Token) : Token :=
  match token.kind with
  | .output => ⟨.output, changeDirective f "=" token.code⟩
  | .code => ⟨.code, changeDirective f [] token.code⟩
  | .openTag =>
    if occursIn "<%" token.text then
      let tag := parseTag token.text
      ⟨.openTag, { tag with attributes := tag.attributes.map (mapAttributeCode f) }.render⟩
    else token
  | _ => token

def mapDirectiveCode (f : Text → Text) (template : Text) : Text :=
  render ((tokenize template).map (mapTokenCode f))

def plainName (t : Text) : Text :=
  match t with
  | c :: r => if isAsciiLetter c || c == '_' then c :: r.takeWhile isWord else []
  | [] => []

/-- The name in braces that `t` begins with, after `lead`, and the length of the whole. -/
def bracedName? (lead t : Text) : Option (Text × Nat) :=
  match t with
  | '{' :: r =>
    let inner := r.dropWhile isBlank
    if startsWith inner lead then
      let name := plainName (inner.drop lead.length)
      match ((inner.drop (lead.length + name.length)).dropWhile isBlank) with
      | '}' :: after => if name.isEmpty then none else some (name, t.length - after.length)
      | _ => none
    else none
  | _ => none

def propOutput (name : Text) : Text := "<%= @" ++ name ++ " %>"

def outputBraces (props : List Text) (t : Text) : Text :=
  let qualified := replaceBy (fun u ↦ (bracedName? "props." u).map fun (n, k) ↦ (propOutput n, k)) t
  replaceBy
    (fun u ↦ (bracedName? [] u).bind fun (n, k) ↦
      if props.contains n then some (propOutput n, k) else none)
    qualified

def propsLookup (code : Text) : Text :=
  replaceBy
    (fun u ↦
      if startsWith u "@props." then
        let name := plainName (u.drop 7)
        if name.isEmpty then none else some ("@props[:" ++ name ++ "]", 7 + name.length)
      else none)
    code

/-- The closer conversion: braces in text, members of the props hash, and concatenations. -/
def enhance (component : Component) (template : Text) : Text :=
  let props := component.props.map (·.name)
  let shown := (tokenize template).map fun token ↦
    if token.kind == .text then { token with text := outputBraces props token.text } else token
  mapDirectiveCode (fun code ↦ Script.interpolate (propsLookup code)) (render shown)

end ViewForge.Template
