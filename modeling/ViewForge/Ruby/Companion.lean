import ViewForge.Ruby.Class

namespace ViewForge.Ruby

open Text

def exampleValue (p : Property) : Text :=
  match p.type with
  | .string => quoted ("Test " ++ p.name)
  | .number => "42"
  | .boolean => "true"
  | .array => "[]"
  | .object => "\x7b\x7d"
  | .any => p.rubyDefault

/-- Arguments for every prop that is neither rest nor slotted, and for a variant if one is
given. -/
def exampleArguments (c : Component) (variant : Option Text) : Text :=
  let props := c.props.filter fun p ↦ !p.isRest && !c.isSlotted p.name
  join ", "
    (props.map (fun p ↦ p.name ++ ": " ++ exampleValue p) ++
      (variant.map fun v ↦ "variant: " ++ quoted v).toList)

def newCall (c : Component) (namespaceName : Text) (variant : Option Text) : Text :=
  c.constant namespaceName ++ ".new(" ++ exampleArguments c variant ++ ")"

def renderTest (c : Component) (namespaceName name : Text) (variant : Option Text) : List Stmt :=
  let selector := (Erb.rootTag? c.html).getD "div"
  [method name
    ["render_inline(" ++ newCall c namespaceName variant ++ ")", [],
     "assert_selector(" ++ quoted selector ++ ")"]]

/-- The file of a component's test: one for the component and one for each variant. -/
def testFile (c : Component) (namespaceName : Text) : Text :=
  let tests :=
    renderTest c namespaceName "test_component_renders" none ::
      c.variants.map fun v ↦
        renderTest c namespaceName ("test_renders_" ++ v ++ "_variant") (some v)
  fileText
    ([frozenComment, .blank, .line "require \"test_helper\"", .blank] ++
      inModules (Naming.moduleNames namespaceName)
        [.block ("class " ++ c.className ++ "Test < ViewComponent::TestCase") (separated tests)])

/-- The file of a component's preview: a default scenario and one for each variant. -/
def previewFile (c : Component) (namespaceName : Text) : Text :=
  let block : Text := if c.isInteractive then " \x7b " ++ quoted c.name ++ " \x7d" else []
  let scenario (name : Text) (variant : Option Text) : List Stmt :=
    [method name ["render(" ++ newCall c namespaceName variant ++ ")" ++ block]]
  let scenarios := scenario "default" none :: c.variants.map fun v ↦ scenario v (some v)
  fileText
    ([frozenComment, .blank] ++
      inModules (Naming.moduleNames namespaceName)
        [.block ("class " ++ c.className ++ "Preview < ViewComponent::Preview")
          (separated scenarios)])

/-- Helpers of an interactive component, one for each variant and each size besides its own. -/
def interactiveHelpers (c : Component) (constant : Text) : List (List Stmt) :=
  let name := c.snakeName
  let signature (n : Text) : Text := n ++ "(text = nil, **options, &block)"
  let option (key value : Text) : List Text :=
    [name ++ "(text, **options.merge(" ++ key ++ ": " ++ quoted value ++ "), &block)"]
  [method (signature name)
    ["component = " ++ constant ++ ".new(**options)", "return render(component, &block) if block",
     [], "render(component) \x7b text \x7d"]] ::
    c.variants.map (fun v ↦ [method (signature (v ++ "_" ++ name)) (option "variant" v)]) ++
    c.sizes.map (fun s ↦ [method (signature (name ++ "_" ++ s)) (option "size" s)])

def helperMethods (c : Component) (constant : Text) : List (List Stmt) :=
  let name := c.snakeName
  if c.isInteractive then interactiveHelpers c constant
  else if c.isIcon then
    [[method (name ++ "(**options)") ["render(" ++ constant ++ ".new(**options))"]],
     [method (name ++ "_sized(size, **options)") [name ++ "(**options.merge(size: size))"]]]
  else
    [[method (name ++ "(**options, &block)") ["render(" ++ constant ++ ".new(**options), &block)"]],
     [method (name ++ "_with_content(content, **options)")
       ["render(" ++ constant ++ ".new(**options)) \x7b content \x7d"]]]

def helperFile (c : Component) (namespaceName : Text) : Text :=
  let modules := Naming.moduleNames namespaceName ++ [Naming.pascalCase c.name ++ "Helper"]
  fileText
    ([frozenComment, .blank] ++
      inModules modules (separated (helperMethods c (c.constant namespaceName))))

end ViewForge.Ruby
