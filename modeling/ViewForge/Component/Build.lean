import ViewForge.Component.Shape
import ViewForge.Markup.Render

namespace ViewForge

open Text Markup

def singleSlotNames : List Text :=
  ["header", "footer", "icon", "media", "avatar", "badge", "prefix", "suffix", "leading", "trailing",
   "sidebar", "action"]

def multiSlotNames : List Text := ["actions", "tabs", "links", "tags", "sections", "columns"]

def childIdentifiers (root : Node) : List Text :=
  (root.children ++ root.elements.flatMap (·.children)).filterMap fun
    | .container (some (.identifier _ _ name)) => some name
    | _ => none

/-- A prop that is shown as a child and has the name of a place for content is a slot. -/
def detectSlots (props : List Property) (root : Node) : List Slot :=
  let shown := childIdentifiers root
  props.filterMap fun p ↦
    if p.isRest || !shown.contains p.name then none
    else if singleSlotNames.contains p.name then some { name := p.name, kind := .one, prop := p.name }
    else if multiSlotNames.contains p.name then some { name := p.name, kind := .many, prop := p.name }
    else none

def normalizeProps (props : List Property) : List Property :=
  props.filter (!·.isRest) ++ (props.filter (·.isRest)).take 1

def normalizeEvents (events : List EventBinding) : List EventBinding :=
  events.foldl
    (fun seen e ↦
      if seen.any fun s ↦ s.event == e.event && s.handler == e.handler then seen else seen ++ [e])
    []

def distinct (names : List Text) : List Text :=
  names.foldl (fun seen n ↦ if seen.contains n then seen else seen ++ [n]) []

def noMarkupWarning : Text := "No JSX elements found in component"

def emptyMarkupWarning : Text := "Component renders no markup"

def stateWarning : Text :=
  "Component uses state or effects, which may require manual Stimulus controller implementation"

/-- The markup of a component, never blank, with the warnings and references it brings. -/
def renderDefinition (props : List Text) : Option Node → Rendered
  | none => { html := Placeholder.wholeTemplate noMarkupWarning, warnings := [noMarkupWarning] }
  | some root =>
    let rendered : Rendered :=
      match renderRoot props root with
      | .ok r => r
      | .error m =>
        { html := Placeholder.wholeTemplate ("Failed to convert JSX to HTML: " ++ m.message)
          warnings := ["Failed to transform JSX to HTML: " ++ m.message] }
    if isBlankText rendered.html then
      { rendered with
        html := Placeholder.wholeTemplate emptyMarkupWarning
        warnings := rendered.warnings ++ [emptyMarkupWarning] }
    else rendered

/-- What keeps the markup of a definition from being rendered. -/
def Definition.misfit? (d : Definition) : Option Misfit :=
  d.roots.head?.bind fun root ↦
    match renderRoot ((normalizeProps d.props).map (·.name)) root with
    | .ok _ => none
    | .error m => some m

namespace Component

def ofDefinition (withSlots : Bool) (d : Definition) : Component :=
  let props := normalizeProps d.props
  let events := normalizeEvents d.events
  let root := d.roots.head?
  let rendered := renderDefinition (props.map (·.name)) root
  let shape := Shape.ofRoot d.name root
  let isSvg := shape.isIcon && startsWith (rendered.html.dropWhile isBlank) "<svg"
  { name := d.name
    snakeName := Naming.snakeCase d.name
    props
    events
    html := rendered.html
    warnings := d.warnings ++ rendered.warnings ++ (if d.hasState then [stateWarning] else [])
    needsController := !events.isEmpty || d.hasState
    path := d.path
    references := distinct rendered.references
    slots := if withSlots then (root.map (detectSlots props)).getD [] else []
    isInteractive := shape.isInteractive
    isIcon := shape.isIcon
    svg := if isSvg then some rendered.html else none
    variants := shape.variants
    sizes := shape.sizes
    styles := shape.styles }

end Component

end ViewForge
