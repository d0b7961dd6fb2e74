import ViewForge.Source.Tree
import ViewForge.Text.Letter

namespace ViewForge

open Text Source

def isHookName (name : Text) : Bool :=
  match name with
  | 'u' :: 's' :: 'e' :: c :: r => isAsciiUpper c && r.all isWord
  | _ => false

def framework : Text := "React"

def frameworkMember? (source : Text) (t : Tree) : Option Text :=
  if t.kind == .member then
    match t.child? .object, t.child? .property with
    | some object, some property =>
      if object.textIn source == framework then some (property.textIn source) else none
    | _, _ => none
  else none

def calledHook? (source : Text) (t : Tree) : Option Text := do
  if t.kind != .call then none
  else
    let callee ← t.child? .function
    let target := callee.unwrapped
    let name ←
      if target.kind == .identifier then some (target.textIn source)
      else frameworkMember? source target
    if isHookName name then some name else none

/-- The hooks that a function calls, each once, in the order of their first calls. -/
def hooksOf (source : Text) (function : Tree) : List Text :=
  (function.walk.filterMap (calledHook? source)).foldl
    (fun seen n ↦ if seen.contains n then seen else seen ++ [n]) []

def stateHooks : List Text := ["useState", "useReducer", "useEffect", "useLayoutEffect"]

def hookWarning (name : Text) : Text :=
  "Component uses React hook: " ++ name ++ ". This may require manual conversion."

def advancedFeatures : List Text :=
  ["useContext", "createContext", "Suspense", "lazy", "memo", "forwardRef"]

def frameworkImports (source : Text) (t : Tree) : List Text :=
  match t.child? .source with
  | none => []
  | some module =>
    if module.textIn source == "'react'" || module.textIn source == "\"react\"" then
      (t.walk.filter (·.kind == .importSpecifier)).filterMap fun s ↦
        (s.child? .name).map (·.textIn source)
    else []

def frameworkNames (source : Text) (t : Tree) : List Text :=
  if t.kind == .importStatement then frameworkImports source t
  else (frameworkMember? source t).toList

/-- The features without a counterpart that a source uses, each once. -/
def featuresOf (source : Text) (root : Tree) : List Text :=
  ((root.walk.flatMap (frameworkNames source)).filter advancedFeatures.contains).foldl
    (fun seen n ↦ if seen.contains n then seen else seen ++ [n]) []

def featureWarning (name : Text) : Text :=
  "Component uses advanced React feature: " ++ name ++ ". Manual conversion may be required."

end ViewForge
