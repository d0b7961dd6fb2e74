import ViewForge.Component.Basic

namespace ViewForge

open Text Markup

structure Shape where
  isInteractive : Bool := false
  isIcon : Bool := false
  styles : Option StyleVariants := none
  deriving DecidableEq, Repr

namespace Shape

def variantNames : List Text := ["primary", "secondary", "destructive", "outline", "ghost", "link"]

def sizeNames : List Text := ["sm", "md", "lg", "xl"]

def variants (s : Shape) : List Text := (s.styles.map fun v ↦ v.variants.map (·.1)).getD []

def sizes (s : Shape) : List Text := (s.styles.map fun v ↦ v.sizes.map (·.1)).getD []

def staticClass? (e : Element) : Option Text :=
  e.attributes.findSome? fun
    | .named name (some (.string v)) => if name == "className" || name == "class" then some v else none
    | _ => none

/-- `key` stands in a class between hyphens or colons; `atStart` says that a word may begin
here. -/
def hasWordFrom (key : Text) (atStart : Bool) : Text → Bool
  | [] => false
  | c :: r =>
    (atStart && startsWith (c :: r) key && ((c :: r).drop key.length).head?.all (· == '-')) ||
    hasWordFrom key (c == '-' || c == ':') r

def hasWord (key cls : Text) : Bool := hasWordFrom key true cls

/-- For each name, the classes that hold it as a word; names without any are left out. -/
def group (classes names : List Text) : List (Text × Text) :=
  names.filterMap fun key ↦
    let found := classes.filter (hasWord key)
    if found.isEmpty then none else some (key, join " " found)

def splitClasses (classes : List Text) : StyleVariants :=
  let variants := group classes variantNames
  let sizes := group classes sizeNames
  let grouped := (variants ++ sizes).flatMap fun g ↦ words g.2
  { base := join " " (classes.filter (!grouped.contains ·)), variants, sizes }

def ofRoot (name : Text) (root : Option Node) : Shape :=
  let element := root.bind Node.rootElement?
  let lowered := lower name
  let tag := (element.map (·.tag)).getD []
  let isIcon := endsWith lowered "icon" || tag == "svg"
  let isInteractive := !isIcon &&
    (occursIn "button" lowered || occursIn "link" lowered || tag == "button" || tag == "a")
  let styles :=
    if isInteractive then element.map fun e ↦ splitClasses (words ((staticClass? e).getD [])) else none
  { isInteractive, isIcon, styles }

end Shape

end ViewForge
