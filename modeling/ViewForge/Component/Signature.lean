import ViewForge.Component.Default
import ViewForge.Source.Scope

namespace ViewForge

open Text Source

/-- The prop that stands for all of them when they are not taken apart. -/
def wholeProps : Property := { name := "props", type := .object }

def computedDefaultWarning (name source : Text) : Text :=
  "Prop '" ++ name ++ "' has a non-literal default value: " ++ source ++ ". It defaults to nil in Ruby."

/-- What is said of a list or an object of which not all entries are literals. -/
def computedEntriesWarning (name source default : Text) : Text :=
  "Prop '" ++ name ++ "' has a default with non-literal entries: " ++ source ++ ". It defaults to " ++
    default ++ " in Ruby."

def defaultedProperty (source name : Text) (default : Tree) : Property × Option Text :=
  let written := default.textIn source
  match inferDefault source default with
  | (_, none) =>
    ({ name, required := false, default := some written },
      some (computedDefaultWarning name written))
  | (type, some literal) =>
    let partly := (type == .array || type == .object) && (Ruby.literalOf? source default).isNone
    ({ name, type, required := false, default := some literal },
      if partly then some (computedEntriesWarning name written literal) else none)

def keyedProperty (source name : Text) (value : Tree) : Property × Option Text :=
  match value.kind with
  | .assignmentPattern =>
    match value.child? .right with
    | some default => defaultedProperty source name default
    | none => ({ name, required := false }, none)
  | .objectPattern => ({ name, type := .object }, none)
  | .arrayPattern => ({ name, type := .array }, none)
  | _ => ({ name }, none)

def propertyOf? (source : Text) (t : Tree) : Option (Property × Option Text) :=
  match t.kind with
  | .shorthandPattern => some ({ name := t.textIn source }, none)
  | .objectAssignmentPattern => do
    let left ← t.child? .left
    let right ← t.child? .right
    return defaultedProperty source (left.textIn source) right
  | .pairPattern => do
    let key ← t.child? .key
    let value ← t.child? .value
    return keyedProperty source (Ruby.keyName source key) value
  | .restPattern => do
    let inner ← t.parts.head?
    return ({ name := inner.textIn source, type := .object, required := false, isRest := true },
      none)
  | _ => none

def propertiesFrom (source : Text) (seen : List Text) : List Tree → List (Property × Option Text)
  | [] => []
  | t :: rest =>
    match propertyOf? source t with
    | none => propertiesFrom source seen rest
    | some (property, warning) =>
      if seen.contains property.name then propertiesFrom source seen rest
      else (property, warning) :: propertiesFrom source (property.name :: seen) rest

def propertiesOf (source : Text) (function : Tree) : List (Property × Option Text) :=
  match function.functionParameters with
  | [] => []
  | first :: _ =>
    if first.parameterTarget.kind == .objectPattern then
      propertiesFrom source [] first.parameterTarget.parts
    else [(wholeProps, none)]

end ViewForge
