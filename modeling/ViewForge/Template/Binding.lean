import ViewForge.Template.Icon

namespace ViewForge.Template

open Text Erb

/-- Names the controller in a binding that does not name one. -/
def qualify (identifier binding : Text) : Text :=
  match breakOn "->" binding with
  | some (event, handler) =>
    if binding.contains '#' then binding else event ++ "->" ++ identifier ++ "#" ++ handler
  | none => binding

def givenValue? (tag : Tag) (name : Text) : Option Text :=
  match (tag.get? name).bind (·.value) with
  | some (c :: r) => some (c :: r)
  | _ => none

def bindActions (identifier : Text) (tag : Tag) : Tag :=
  { tag with
    attributes :=
      editValue "data-action" (fun v ↦ join " " ((words v).map (qualify identifier))) tag.attributes }

def bindRoot (identifier : Text) (tag : Tag) : Tag :=
  match givenValue? tag "data-controller" with
  | some v =>
    if (words v).contains identifier then tag
    else
      { tag with
        attributes := editValue "data-controller" (· ++ ' ' :: identifier) tag.attributes }
  | none => tag.insert 0 "data-controller" (some identifier)

/-- Binds every tag; `rootPending` says that the root is still to come. -/
def bindTokens (identifier : Text) (rootPending : Bool) : List Token → List Token
  | [] => []
  | token :: rest =>
    if isOpenTag token then
      let tag := parseTag token.text
      let hasAction := (givenValue? tag "data-action").isSome
      let bound := if hasAction then bindActions identifier tag else tag
      let new : Token :=
        if rootPending then ⟨.openTag, (bindRoot identifier bound).render⟩
        else if hasAction then ⟨.openTag, bound.render⟩
        else token
      new :: bindTokens identifier false rest
    else token :: bindTokens identifier rootPending rest

def controllerWarning : Text := "<%# WARNING: Could not add Stimulus controller to root element %>"

def bindController (component : Component) (template : Text) : Text :=
  let tokens := tokenize template
  if tokens.any isOpenTag then render (bindTokens component.controllerIdentifier true tokens)
  else controllerWarning ++ "\n" ++ template

def slotToken (slot : Slot) : Token :=
  match slot.kind with
  | .one => ⟨.output, "<%= " ++ slot.name ++ " if " ++ slot.name ++ "? %>"⟩
  | .many =>
    let item : Text :=
      if endsWith slot.name "s" && 1 < slot.name.length then slot.name.dropLast else "item"
    ⟨.code, "<% " ++ slot.name ++ ".each do |" ++ item ++ "| %><%= " ++ item ++ " %><% end %>"⟩

def slotFor? (slots : List Slot) (code : Text) : Option Slot :=
  slots.reverse.find? fun s ↦ '@' :: s.prop == code

def renderSlots (component : Component) (template : Text) : Text :=
  render ((tokenize template).map fun token ↦
    if token.kind == .output then ((slotFor? component.slots token.code).map slotToken).getD token
    else token)

def isChildrenOutput (token : Token) : Bool :=
  token.kind == .output && (token.code == "@children" || token.code == "children")

def substituteChildren (template : Text) : Text :=
  render ((tokenize template).map fun token ↦
    if isChildrenOutput token then ⟨.output, "<%= content %>"⟩ else token)

def hasChildren (template : Text) : Bool := (tokenize template).any isChildrenOutput

end ViewForge.Template
