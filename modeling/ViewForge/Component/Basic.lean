import ViewForge.Data.Value
import ViewForge.Markup.Handler
import ViewForge.Naming

namespace ViewForge

open Text Markup

/-- What kind of value a prop holds, as its default shows. -/
inductive ValueType where
  | string
  | number
  | boolean
  | array
  | object
  | any
  deriving DecidableEq, Repr

def ValueType.label : ValueType → Text
  | .string => "string"
  | .number => "number"
  | .boolean => "boolean"
  | .array => "array"
  | .object => "object"
  | .any => "any"

def ValueType.all : List ValueType := [.string, .number, .boolean, .array, .object, .any]

/-- An input of a component. The default is Ruby text, or the source of an expression that is
no literal; a rest prop takes all keys that have no prop of their own. -/
structure Property where
  name : Text
  type : ValueType := .any
  required : Bool := true
  default : Option Text := none
  isRest : Bool := false
  deriving DecidableEq, Repr

def Property.isListLike (p : Property) : Bool :=
  !p.isRest && (p.name == "items" || p.name == "collection" || p.name == "data" ||
    (p.type == .array && endsWith p.name "s"))

inductive SlotKind where
  | one
  | many
  deriving DecidableEq, Repr

def SlotKind.label : SlotKind → Text
  | .one => "renders_one"
  | .many => "renders_many"

structure Slot where
  name : Text
  kind : SlotKind := .one
  prop : Text
  deriving DecidableEq, Repr

/-- The classes of an interactive component: those it always has, and those of each variant and
each size. -/
structure StyleVariants where
  base : Text := []
  variants : List (Text × Text) := []
  sizes : List (Text × Text) := []
  deriving DecidableEq, Repr

structure Definition where
  name : Text
  props : List Property := []
  roots : List Node := []
  hasState : Bool := false
  events : List EventBinding := []
  warnings : List Text := []
  path : Text := "Component.jsx"

structure Component where
  name : Text
  snakeName : Text
  props : List Property := []
  events : List EventBinding := []
  html : Text
  warnings : List Text := []
  needsController : Bool := false
  path : Text := []
  references : List Text := []
  slots : List Slot := []
  isInteractive : Bool := false
  isIcon : Bool := false
  svg : Option Text := none
  variants : List Text := []
  sizes : List Text := []
  styles : Option StyleVariants := none
  deriving DecidableEq, Repr

namespace Component

def requiredProps (c : Component) : List Property := c.props.filter fun p ↦ p.required && !p.isRest

def optionalProps (c : Component) : List Property := c.props.filter fun p ↦ !p.required && !p.isRest

def restProp? (c : Component) : Option Property := c.props.find? (·.isRest)

def isSlotted (c : Component) (name : Text) : Bool := c.slots.any (·.prop == name)

/-- The name by which documents address the controller: `TodoList` has `todo-list`. -/
def controllerIdentifier (c : Component) : Text := Naming.kebabCase c.name

def className (c : Component) : Text := Naming.pascalCase c.name ++ "Component"

def constant (c : Component) (namespaceName : Text) : Text :=
  Naming.constantPath namespaceName ++ "::" ++ c.className

end Component

end ViewForge
