import ViewForge.Source.Tree
import ViewForge.Markup.Node

namespace ViewForge.Source

open Text

namespace Tree

def functionParameters (t : Tree) : List Tree :=
  match t.child? .parameter with
  | some p => [p]
  | none => ((t.child? .parameters).map parts).getD []

def untyped (t : Tree) : Tree :=
  if t.kind == .requiredParameter || t.kind == .optionalParameter then
    (t.child? .pattern).getD t
  else t

/-- The pattern of a parameter, without its type and its default. -/
def parameterTarget (t : Tree) : Tree :=
  if t.untyped.kind == .assignmentPattern then (t.untyped.child? .left).getD t.untyped
  else t.untyped

def isPatternName (t : Tree) : Bool := t.kind == .identifier || t.kind == .shorthandPattern

/-- The names right below a node; a name that is a default is not one of them. -/
def namesBelow (source : Text) (t : Tree) : List Text :=
  let defaulted := t.kind == .assignmentPattern || t.kind == .objectAssignmentPattern
  (t.children.filter fun c ↦ c.isPatternName && !(defaulted && c.role == .right)).map
    (·.textIn source)

def boundNames (source : Text) (t : Tree) : List Text :=
  if t.parameterTarget.isPatternName then [t.parameterTarget.textIn source]
  else t.parameterTarget.walk.flatMap (namesBelow source)

def isTag (t : Tree) : Bool :=
  t.kind == .openingTag || t.kind == .selfClosingElement || t.kind == .closingTag

/-- Whether a child can hold free names of its parent: of a function only the body, of a tag or
an attribute all but the name, of a variable or a pair only the value. -/
def mayHoldNames (parent child : Tree) : Bool :=
  if parent.isFunction then child.role == .body
  else if parent.isTag || parent.kind == .attribute then child.isNamed && child.role != .name
  else if parent.kind == .declarator || parent.kind == .pair then child.role == .value
  else child.isNamed

mutual

/-- The free names of a tree, in order, with their places counted from `base`. -/
def freeNames (source : Text) (base : Nat) (bound : List Text) : Tree → List Markup.Ref
  | .node kind role start stop children =>
    let name := slice source start stop
    if kind == .identifier then
      if bound.contains name || name == "undefined" then [] else [⟨start - base, name, false⟩]
    else if kind == .shorthandProperty then
      if bound.contains name then [] else [⟨start - base, name, true⟩]
    else
      let t := Tree.node kind role start stop children
      let bound :=
        if t.isFunction then t.functionParameters.flatMap (boundNames source) ++ bound else bound
      freeNamesBelow source base bound (t.mayHoldNames ·) children

def freeNamesBelow (source : Text) (base : Nat) (bound : List Text) (test : Tree → Bool) :
    List Tree → List Markup.Ref
  | [] => []
  | t :: rest =>
    (if test t then freeNames source base bound t else []) ++
      freeNamesBelow source base bound test rest

end

def refs (source : Text) (t : Tree) : List Markup.Ref := t.freeNames source t.start []

end Tree

end ViewForge.Source
