import ViewForge.Markup.Handler
import ViewForge.Markup.Html
import ViewForge.Placeholder
import ViewForge.Text.Entity

namespace ViewForge.Markup

open Text

/-- A node of a class that its place does not admit: none that is rendered there, or one without
the field that is read there. -/
inductive Misfit where
  | node (kind : Text)
  | child (kind : Text)
  | expression (kind : Text)
  | value (kind : Text)
  | missing (kind field : Text)
  deriving DecidableEq, Repr

def Misfit.message : Misfit → Text
  | .node kind => "Unhandled markup node: " ++ kind
  | .child kind => "Unhandled markup child: " ++ kind
  | .expression kind => "Unhandled expression node: " ++ kind
  | .value kind => "Unhandled attribute value: " ++ kind
  | .missing kind field => "'" ++ kind ++ "' object has no attribute '" ++ field ++ "'"

/-- How a misfit stands in a detail message. -/
def Misfit.detail (m : Misfit) : Text :=
  match m with
  | .missing .. => "AttributeError(\"" ++ m.message ++ "\")"
  | _ => "TypeError('" ++ m.message ++ "')"

/-- Rendered markup with what was met on the way. It is of use only if `misfits` is empty. -/
structure Rendered where
  html : Text := []
  warnings : List Text := []
  references : List Text := []
  misfits : List Misfit := []
  deriving DecidableEq, Repr

namespace Rendered

def append (a b : Rendered) : Rendered where
  html := a.html ++ b.html
  warnings := a.warnings ++ b.warnings
  references := a.references ++ b.references
  misfits := a.misfits ++ b.misfits

instance : Append Rendered := ⟨append⟩

def wrap (before : Text) (r : Rendered) (after : Text) : Rendered :=
  { r with html := before ++ r.html ++ after }

def failure (reason : Text) : Rendered where
  html := Placeholder.comment reason
  warnings := [reason]

def misfit (m : Misfit) : Rendered where
  misfits := [m]

def lacking (r : Rendered) (misfits : List Misfit) : Rendered :=
  { r with misfits := r.misfits ++ misfits }

@[simp] theorem html_lacking (r : Rendered) (misfits : List Misfit) :
    (r.lacking misfits).html = r.html := rfl

end Rendered

/-- The names in sight: props, and the loop variables that hide them. -/
structure Scope where
  props : List Text
  locals : List Text := []

namespace Scope

def reference (scope : Scope) (name : Text) : Option Text :=
  if scope.props.contains name && !scope.locals.contains name then some ('@' :: name) else none

def bind (scope : Scope) (names : List Text) : Scope :=
  { scope with locals := scope.locals ++ names }

end Scope

/-- The code of an expression on one line, with props as instance variables. -/
def Expr.code (scope : Scope) (e : Expr) : Text :=
  match e with
  | .identifier _ _ name => (scope.reference name).getD name
  | _ => strip (joinLines (e.substitute scope.reference))

def Expr.codeMisfits : Expr → List Misfit
  | .misplaced kind => [.missing kind "substitute"]
  | _ => []

def Param.misfits (p : Param) : List Misfit := p.foreign.toList.map (.missing · "name")

def outputDirective (code : Text) : Text := "<%= " ++ code ++ " %>"

def codeDirective (code : Text) : Text := "<% " ++ code ++ " %>"

def endDirective : Text := "<% end %>"

/-- Attributes of one tag: their text, and the placeholders that stand before the tag. -/
structure RenderedAttributes where
  parts : Text := []
  actions : List Text := []
  leading : Text := []
  warnings : List Text := []
  misfits : List Misfit := []

inductive AttributeText where
  | part (t : Text)
  | failure (reason : Text)
  | misfit (m : Misfit)

def quotedAttribute (name value : Text) : Text := " " ++ name ++ "=\"" ++ value ++ "\""

def unsupportedValue (name what : Text) : AttributeText :=
  .failure ("Unsupported attribute value for " ++ name ++ ": " ++ what)

/-- An expression as the value of the attribute `name`, which the tag writes as `html`. -/
def expressionAttribute (scope : Scope) (isComponent : Bool) (name html : Text) (e : Expr) :
    AttributeText :=
  let computed :=
    if !isComponent && isAmong html booleanAttributes then
      AttributeText.part (" <%= \"" ++ html ++ "\" if " ++ e.code scope ++ " %>")
    else .part (quotedAttribute html (outputDirective (e.code scope)))
  match e with
  | .literal source _ .string =>
    .part (quotedAttribute html (attributeText ((source.drop 1).dropLast)))
  | .literal source _ .number => .part (quotedAttribute html source)
  | .literal _ _ (.boolean true) => .part (' ' :: html)
  | .literal _ _ (.boolean false) | .literal _ _ .null | .literal _ _ .undefined => .part []
  | .markup .. => unsupportedValue name "MarkupExpression"
  | .function .. => unsupportedValue name "InlineFunction"
  | .other _ _ kind =>
    if kind == "object" && !isComponent then unsupportedValue name "object literal" else computed
  | .misplaced kind => .misfit (.missing kind "substitute")
  | _ => computed

def valueAttribute (scope : Scope) (isComponent : Bool) (name html : Text) :
    Option Value → AttributeText
  | none => .part (' ' :: html)
  | some (.string v) => .part (quotedAttribute html (attributeText v))
  | some (.unsupported kind _) => unsupportedValue name kind
  | some (.expression none) => .part []
  | some (.expression (some e)) => expressionAttribute scope isComponent name html e
  | some (.misplaced kind) => .misfit (.value kind)

def RenderedAttributes.add (r : RenderedAttributes) : AttributeText → RenderedAttributes
  | .part t => { r with parts := r.parts ++ t }
  | .failure reason =>
    { r with leading := r.leading ++ Placeholder.comment reason, warnings := r.warnings ++ [reason] }
  | .misfit m => { r with misfits := r.misfits ++ [m] }

def handlerMisfits : Option Value → List Misfit
  | some (.expression (some (.function _ _ params _ _))) => params.flatMap (·.misfits)
  | _ => []

/-- What a node that is no attribute lacks: a name, or the test for the name of an event, unless
its name is one of those that are passed over. -/
def foreignAttribute (kind : Text) : Option Text → List Misfit
  | none => [.missing kind "name"]
  | some name => if isAmong name droppedAttributes then [] else [.missing kind "is_event_handler"]

/-- Adds one attribute to a tag. The handlers of a native tag are collected as actions. -/
def renderAttribute (scope : Scope) (isComponent : Bool) (r : RenderedAttributes) :
    Attribute → RenderedAttributes
  | .spread argument =>
    { r with
      parts := r.parts ++ " <%= render_attributes(" ++ argument.code scope ++ ") %>"
      misfits := r.misfits ++ argument.codeMisfits }
  | .misplaced kind name => { r with misfits := r.misfits ++ foreignAttribute kind name }
  | .named name value =>
    if isAmong name droppedAttributes then r
    else if isEventName name && !isComponent then
      let (handler, _) := resolveHandler name value
      { r with
        actions := r.actions ++ [eventOf name ++ "->" ++ handler]
        misfits := r.misfits ++ handlerMisfits value }
    else
      let html := if isComponent then name else attributeName name
      r.add (valueAttribute scope isComponent name html value)

def renderAttributes (scope : Scope) (isComponent : Bool) (attributes : List Attribute) :
    RenderedAttributes :=
  let r := attributes.foldl (renderAttribute scope isComponent) {}
  if r.actions.isEmpty then r
  else { r with parts := r.parts ++ quotedAttribute "data-action" (join " " r.actions) }

def excerpt (source : Text) : Text :=
  let flat := join " " (words source)
  if flat.length ≤ 60 then flat else flat.take 57 ++ "..."

def unquotedFrom (t : Text) : Text :=
  replace ['\\', 'n'] ['\n'] (replace ['\\', '"'] ['"'] (replace ['\\', '\''] ['\''] t))

def unquoted (source : Text) : Text := unquotedFrom ((source.drop 1).dropLast)

def LiteralKind.isEmpty : LiteralKind → Bool
  | .null | .undefined | .boolean _ => true
  | _ => false

def Expr.isEmptyBranch : Expr → Bool
  | .literal source _ kind =>
    kind.isEmpty || source == ['"', '"'] || source == ['\'', '\''] ||
      source == [Char.ofNat 96, Char.ofNat 96]
  | _ => false

def renderLiteral (scope : Scope) (e : Expr) (source : Text) : LiteralKind → Rendered
  | .null | .undefined | .boolean _ => {}
  | .string => { html := escape (unquoted source) }
  | .number => { html := source }
  | .template | .regex => { html := outputDirective (e.code scope) }

/-- The loop variables that the parameters of a callback bind, the head of the loop over
`receiver`, and a warning for a pattern that binds no name. -/
def loopHead (receiver : Text) (params : List Param) : List Text × Text × List Text :=
  let item := orElse ((params.head?.bind (·.name)).getD []) "item"
  let warnings : List Text :=
    match params.head? with
    | some p =>
      if (p.name.getD []).isEmpty then
        ["Destructured loop parameter " ++ p.source ++ " is not supported; bound as '" ++ item ++ "'."]
      else []
    | none => []
  match (params[1]?.bind (·.name)).getD [] with
  | [] => ([item], codeDirective (receiver ++ ".each do |" ++ item ++ "|"), warnings)
  | index =>
    ([item, index],
      codeDirective (receiver ++ ".each_with_index do |" ++ item ++ ", " ++ index ++ "|"), warnings)

/-- What is in the way of a loop: its first parameter, its receiver, its second parameter. -/
def loopMisfits (receiver : Expr) (params : List Param) : List Misfit :=
  (params.take 1).flatMap (·.misfits) ++ receiver.codeMisfits ++
    ((params.drop 1).take 1).flatMap (·.misfits)

/-- The class of a node that may not stand alone. -/
def Node.label : Node → Text
  | .element .. => "Element"
  | .fragment _ => "Fragment"
  | .text _ => "Text"
  | .container _ => "ExpressionContainer"
  | .unsupported .. => "UnsupportedChild"
  | .misplaced kind => kind

def renderElement (scope : Scope) (tag : Text) (attributes : List Attribute)
    (children : Rendered) (selfClosing : Bool) : Rendered :=
  let (html, reference) := resolveTag tag
  let r := renderAttributes scope reference.isSome attributes
  let marker : Text :=
    match reference with
    | some name => quotedAttribute componentMarker name
    | none => []
  let opening := r.leading ++ "<" ++ html ++ marker ++ r.parts
  let head : Rendered :=
    { warnings := r.warnings, references := reference.toList, misfits := r.misfits }
  if selfClosing then head ++ { html := opening ++ " />" }
  else head ++ children.wrap (opening ++ ">") ("</" ++ html ++ ">")

def renderConditional (test : Text) (consequent alternate : Rendered) : Rendered :=
  let otherwise : Text := if alternate.html.isEmpty then [] else "<% else %>"
  consequent.wrap (codeDirective ("if " ++ test)) [] ++ alternate.wrap otherwise [] ++
    { html := endDirective }

mutual

def Node.render (scope : Scope) : Node → Rendered
  | .element tag attributes children selfClosing =>
    let inner := if selfClosing then {} else renderNodes scope children
    renderElement scope tag attributes inner selfClosing
  | .fragment children => renderNodes scope children
  | .text value => { html := value }
  | .container none => {}
  | .container (some e) => e.render scope
  | .unsupported kind _ => .failure ("Unsupported child node: " ++ kind)
  | .misplaced kind => .misfit (.child kind)

def renderNodes (scope : Scope) : List Node → Rendered
  | [] => {}
  | n :: r => n.render scope ++ renderNodes scope r

def Expr.render (scope : Scope) (e : Expr) : Rendered :=
  match e with
  | .conditional _ _ test consequent alternate =>
    (renderConditional (test.code scope)
      (if consequent.isEmptyBranch then {} else consequent.render scope)
      (if alternate.isEmptyBranch then {} else alternate.render scope)).lacking test.codeMisfits
  | .logical _ _ .and left right =>
    ((if right.isEmptyBranch then {} else right.render scope).wrap
      (codeDirective ("if " ++ left.code scope)) endDirective).lacking left.codeMisfits
  | .call source _ _ [.function _ _ params body _] (some ['m', 'a', 'p']) (some receiver) =>
    match body with
    | none =>
      .failure ("Block-bodied callback in list rendering is not supported: " ++ excerpt source)
    | some b =>
      let (bound, head, warnings) := loopHead (receiver.code scope) params
      { warnings, misfits := loopMisfits receiver params } ++
        (if b.isEmptyBranch then {} else b.render (scope.bind bound)).wrap head endDirective
  | .markup _ _ node => if node.isRoot then node.render scope else .misfit (.node node.label)
  | .literal source _ kind => renderLiteral scope e source kind
  | .function source .. =>
    .failure ("Inline function cannot be rendered as markup: " ++ excerpt source)
  | .misplaced kind => .misfit (.expression kind)
  | _ => { html := outputDirective (e.code scope) }

end

def renderRoot (props : List Text) (root : Node) : Except Misfit Rendered :=
  if root.isRoot then
    let rendered := root.render { props }
    match rendered.misfits with
    | [] => .ok rendered
    | m :: _ => .error m
  else .error (.node root.label)

end ViewForge.Markup
