import ViewForge.Component.Hook
import ViewForge.Component.Signature
import ViewForge.Markup.OfTree
import ViewForge.Project.Path
import ViewForge.Source.Parse

set_option linter.unusedVariables false

namespace ViewForge

open Text Source Markup

/-- A function that may be the component, with the name it would have. -/
structure Candidate where
  name : Text
  function : Tree

namespace Candidate

def isCapitalized (c : Candidate) : Bool := c.name.head?.any isUpper

def hasMarkup (c : Candidate) : Bool := c.function.walk.any Tree.isMarkup

end Candidate

def firstArgument? (t : Tree) : Option Tree :=
  if t.kind == .call then
    match t.child? .arguments with
    | some arguments => if arguments.kind == .arguments then arguments.parts.head? else none
    | none => none
  else none

theorem size_lt_of_firstArgument? {t u : Tree} (h : firstArgument? t = some u) :
    u.size < t.size := by
  unfold firstArgument? at h
  split at h
  · split at h
    · rename_i ha
      split at h
      · exact Nat.lt_trans (Tree.size_lt_of_mem_parts (List.mem_of_mem_head? h))
          (Tree.size_lt_of_child? ha)
      · cases h
    · cases h
  · cases h

/-- The function that an expression is, or that calls wrap as their first argument. -/
def wrappedFunction? (t : Tree) : Option Tree :=
  if t.unwrapped.isFunction then some t.unwrapped
  else
    match h : firstArgument? t.unwrapped with
    | none => none
    | some inner => wrappedFunction? inner
termination_by t.size
decreasing_by
  have h₁ := t.size_unwrapped_le
  have h₂ := size_lt_of_firstArgument? h
  omega

/-- A candidate among the parts of a default export: a function without a name, or one that
calls wrap. -/
def exportedCandidate? (defaultName : Text) (t : Tree) : Option Candidate :=
  if t.isFunction then if (t.child? .name).isNone then some ⟨defaultName, t⟩ else none
  else if t.kind == .call then (wrappedFunction? t).map (⟨defaultName, ·⟩)
  else none

def candidatesAt (source defaultName : Text) (t : Tree) : List Candidate :=
  match t.kind with
  | .functionDeclaration | .generatorDeclaration =>
    [⟨((t.child? .name).map (·.textIn source)).getD defaultName, t⟩]
  | .declarator =>
    match t.child? .name, (t.child? .value).bind wrappedFunction? with
    | some name, some function =>
      if name.kind == .identifier then [⟨name.textIn source, function⟩] else []
    | _, _ => []
  | .exportStatement =>
    if t.children.any (·.kind == .defaultWord) then
      t.parts.filterMap (exportedCandidate? defaultName)
    else []
  | _ => []

/-- The name of a component that its source does not name: that of its file up to the first
dot. -/
def defaultName (path : Text) : Text :=
  let name := Naming.pascalCase (((Project.Path.ofText path).stem).takeWhile (· != '.'))
  if name.isEmpty then "Component" else name

def candidates (parsed : Parsed) : List Candidate :=
  parsed.root.walk.flatMap (candidatesAt parsed.source (defaultName parsed.path))

def chosenCandidate? (parsed : Parsed) : Option Candidate :=
  let withMarkup := (candidates parsed).filter (·.hasMarkup)
  (withMarkup.find? (·.isCapitalized)).or withMarkup.head?

def flawWarning : Text := "Source contains syntax errors; the conversion may be incomplete."

def manyRootsWarning : Text :=
  "Multiple JSX elements found, using heuristics to identify the root element"

def noComponentMessage (path : Text) : Text := "Could not determine component in file: " ++ path

namespace Definition

def ofParsed? (parsed : Parsed) : Option Definition := do
  let candidate ← chosenCandidate? parsed
  let properties := propertiesOf parsed.source candidate.function
  let hooks := hooksOf parsed.source candidate.function
  let roots := rootsOf parsed
  return {
    name := candidate.name
    props := properties.map (·.1)
    roots
    hasState := hooks.any stateHooks.contains
    events := eventBindings (roots.flatMap Node.elements)
    warnings :=
      (if parsed.flawed then [flawWarning] else []) ++ properties.filterMap (·.2) ++
        hooks.map hookWarning ++ (featuresOf parsed.source parsed.root).map featureWarning ++
        (if 1 < roots.length then [manyRootsWarning] else [])
    path := parsed.path }

def ofSource? (path source : Text) : Option Definition :=
  ofParsed? (parse path source (.ofSuffix (Project.Path.ofText path).suffix))

end Definition

end ViewForge
