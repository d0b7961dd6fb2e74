import ViewForge.Component.Basic
import ViewForge.Ruby.Block
import ViewForge.Ruby.Literal
import ViewForge.Template.Binding

namespace ViewForge

open Text

namespace Property

/-- The default in the constructor; the source of an expression that is no literal becomes
`nil`. -/
def rubyDefault (p : Property) : Text :=
  match p.default with
  | none => "nil"
  | some d => if p.type == .any then "nil" else d

end Property

namespace Component

def shapeParameters (c : Component) : List Text :=
  if c.isInteractive then ["variant", "size", "html_class"]
  else if c.isIcon then ["size", "color", "html_class"]
  else ["html_class"]

/-- The props of the class: required, optional, rest; slots take the place of theirs. -/
def classProps (c : Component) : List Property :=
  (c.requiredProps ++ c.optionalProps ++ c.restProp?.toList).filter (!c.isSlotted ·.name)

def usesRenderAttributes (c : Component) : Bool :=
  c.restProp?.isSome || occursIn "render_attributes(" c.html

def isButton (c : Component) : Bool :=
  c.isInteractive && startsWith (c.html.dropWhile isBlank) "<button"

end Component

namespace Ruby

def slotLines (c : Component) : List Stmt :=
  if !c.slots.isEmpty then c.slots.map fun s ↦ .line (s.kind.label ++ " :" ++ s.name)
  else if c.isInteractive || Template.hasChildren c.html then
    [.line "# Markup passed in the render block is available as `content`."]
  else []

def readers (c : Component) : List Stmt :=
  let names := c.classProps.map (·.name) ++ c.shapeParameters
  [.line ("attr_reader " ++ join ", " (names.map (':' :: ·)))]

def parameter (p : Property) : Text :=
  if p.required then p.name ++ [':'] else p.name ++ ": " ++ p.rubyDefault

/-- The keyword parameters of the constructor; the last rest prop takes the other keywords. -/
def constructorParameters (c : Component) : List Text :=
  let rest := (c.classProps.filter (·.isRest)).getLast?
  (c.classProps.filter (!·.isRest)).map parameter ++
    c.shapeParameters.map (fun n : Text ↦ (n ++ ": nil" : Text)) ++
    (rest.map fun p ↦ '*' :: '*' :: p.name).toList

def storedNames (c : Component) : List Text :=
  let rest := (c.classProps.filter (·.isRest)).getLast?
  (c.classProps.filter (!·.isRest)).map (·.name) ++ c.shapeParameters ++
    (rest.map (·.name)).toList

def constructor (c : Component) : List Stmt :=
  [method ("initialize(" ++ join ", " (constructorParameters c) ++ ")")
    ((storedNames c).map fun n ↦ "@" ++ n ++ " = " ++ n)]

def attributeRenderer (c : Component) : List Stmt :=
  if c.usesRenderAttributes then
    [method "render_attributes(attrs)"
      ["attrs.to_h.except(:content).map \x7b |key, value| \"#\x7bkey\x7d=\\\"#\x7bERB::Util.html_escape(value)\x7d\\\"\" \x7d.join(\" \").html_safe"]]
  else []

def collectionFactory (c : Component) : List Stmt :=
  match c.classProps.find? (·.isListLike) with
  | none => []
  | some p =>
    [method "self.build_collection(collection, **options)"
      ["new(" ++ p.name ++ ": collection.to_a, **options)"]]

def caseMethod (name selector : Text) (classes : List (Text × Text)) : Stmt :=
  .block ("def " ++ name)
    [.branches ("case " ++ selector ++ ".to_s")
      (classes.map (fun (k, v) ↦ "when " ++ quoted k ++ " then " ++ quoted v) ++
        [("else \"\"" : Text)])]

def styleMethods (c : Component) : List Stmt :=
  if c.isInteractive then
    let styles := c.styles.getD {}
    separated
      [[method "base_classes" [quoted styles.base]],
       [caseMethod "variant_classes" "variant" styles.variants],
       [caseMethod "size_classes" "size" styles.sizes],
       [method "class_names"
         ["[base_classes, (variant_classes if variant), (size_classes if size), html_class].compact.reject(&:empty?).join(\" \")"]]]
  else []

def buttonType (c : Component) : List Stmt :=
  if c.isButton then [method "button_type" ["@type || \"button\""]] else []

def classBody (c : Component) : List Stmt :=
  separated
    ([slotLines c, readers c, constructor c, attributeRenderer c, collectionFactory c,
      styleMethods c, buttonType c].filter (!·.isEmpty))

def classFile (c : Component) (namespaceName : Text) : Text :=
  let warnings : List Stmt := c.warnings.map fun w ↦ .line ("# WARNING: " ++ w)
  fileText
    ((if warnings.isEmpty then [] else warnings ++ [.blank]) ++ [frozenComment, .blank] ++
      inModules (Naming.moduleNames namespaceName)
        [.block ("class " ++ c.className ++ " < ViewComponent::Base") (classBody c)])

end Ruby

end ViewForge
