import ViewForge.Markup.Node

namespace ViewForge.Markup

open Text

def isEventName (name : Text) : Bool :=
  match name with
  | 'o' :: 'n' :: c :: _ => isUpper c
  | _ => false

def eventOf (name : Text) : Text := lower (name.drop 2)

/-- A name made of ASCII letters, `_`, `$` and word characters; one line break may end it. -/
def isHandlerName : Text → Bool
  | [] => false
  | c :: r => isNameStart c && (if endsWith r ['\n'] then r.dropLast else r).all isNamePart

def trailingName (source : Text) : Text :=
  let run := ((trimRight isBlank source).reverse.takeWhile isNamePart).reverse
  run.dropWhile (!isNameStart ·)

def calleeName : Expr → Text
  | .identifier _ _ name => name
  | .member source .. => trailingName source
  | _ => []

def orElse (name fallback : Text) : Text := if name.isEmpty then fallback else name

/-- The handler of an event attribute and the parameters it declares. A closure that calls no
named function gets a name made from the event. -/
def resolveHandler (name : Text) (value : Option Value) : Text × List Text :=
  let synthetic := eventOf name ++ "Handler"
  match value with
  | some (.string v) => (if isHandlerName v then v else synthetic, [])
  | some (.expression (some e)) =>
    match e with
    | .identifier _ _ n => (n, [])
    | .member source .. => (orElse (trailingName source) synthetic, [])
    | .function _ _ params body _ =>
      let names := params.map fun p ↦ orElse (p.name.getD []) "param"
      match body with
      | some (.call _ _ callee ..) => (orElse (calleeName callee) synthetic, names)
      | _ => (synthetic, names)
    | .call _ _ callee .. => (orElse (calleeName callee) synthetic, [])
    | _ => (synthetic, [])
  | _ => (synthetic, [])

structure EventBinding where
  event : Text
  handler : Text
  params : List Text := []
  deriving DecidableEq, Repr

def Attribute.binding? : Attribute → Option EventBinding
  | .named name value =>
    if isEventName name then
      let (handler, params) := resolveHandler name value
      some { event := eventOf name, handler, params }
    else none
  | .spread _ | .misplaced .. => none

def eventBindings (elements : List Element) : List EventBinding :=
  elements.flatMap fun e ↦ e.attributes.filterMap Attribute.binding?

end ViewForge.Markup
