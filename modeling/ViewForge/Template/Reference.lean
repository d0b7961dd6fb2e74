import ViewForge.Template.Code
import ViewForge.Markup.Html

namespace ViewForge.Template

open Text Erb

def literalChunk : Chunk → Text
  | .plain t => Ruby.escape (unescape t)
  | .directive body => "#\x7b" ++ (marked codeMarkers body).2 ++ "\x7d"

def wholeOutput? (value : Text) : Option Text :=
  let t := strip value
  if startsWith t "<%=" && endsWith t "%>" && 5 ≤ t.length then
    let code := bareCode ((t.drop 3).take (t.length - 5))
    if occursIn "<%" code then none else some code
  else none

def rubyValue : Option Text → Text
  | none => "true"
  | some value =>
    match wholeOutput? value with
    | some code => code
    | none => '"' :: (chunks value).flatMap literalChunk ++ ['"']

def spreadArgument? (directive : Text) : Option Text :=
  if startsWith directive "<%=" && endsWith directive "%>" then
    let call := (directive.drop 3).dropWhile isBlank
    let lead : Text := "render_attributes("
    let inner := trimRight isBlank (((call.drop lead.length).dropLast).dropLast)
    if startsWith call lead && endsWith inner ")" then some (strip inner.dropLast) else none
  else none

def isBareKey (name : Text) : Bool := !name.isEmpty && plainName name == name

def rubyArgument? (a : TagAttribute) : Option Text :=
  if a.isDirective then (spreadArgument? a.name).map ("**" ++ ·)
  else
    let name : Text := if a.name == "class" || a.name == "className" then "html_class" else a.name
    let key := if isBareKey name then name else Ruby.quoted name
    some (key ++ ": " ++ rubyValue a.value)

def renderCall (namespacePath : Text) (reference : Option Text) (tag : Tag) : Text :=
  let arguments := join ", " (tag.attributes.filterMap rubyArgument?)
  "render " ++ namespacePath ++ "::" ++ reference.getD "None" ++ "Component.new" ++
    (if arguments.isEmpty then [] else '(' :: arguments ++ [')'])

/-- The tokens before the tag that closes `depth` open tags of that name, and those after it. -/
def splitAtClose (name : Text) : Nat → List Token → List Token × List Token
  | _, [] => ([], [])
  | depth, token :: rest =>
    let tag := parseTag token.text
    if token.kind == .closeTag && tag.name == name then
      if depth ≤ 1 then ([], rest)
      else
        let (inner, after) := splitAtClose name (depth - 1) rest
        (token :: inner, after)
    else
      let deeper := token.kind == .openTag && tag.name == name && !tag.selfClosing
      let (inner, after) := splitAtClose name (if deeper then depth + 1 else depth) rest
      (token :: inner, after)

theorem length_splitAtClose_le (name : Text) (depth : Nat) (tokens : List Token) :
    (splitAtClose name depth tokens).1.length ≤ tokens.length ∧
      (splitAtClose name depth tokens).2.length ≤ tokens.length := by
  induction tokens generalizing depth with
  | nil => simp [splitAtClose]
  | cons token rest ih =>
    rw [splitAtClose]
    dsimp only
    split
    · split
      · simp
      · have := ih (depth - 1)
        simp only [List.length_cons]
        omega
    · have := ih (if token.kind == .openTag && (parseTag token.text).name == name &&
        !(parseTag token.text).selfClosing then depth + 1 else depth)
      simp only [List.length_cons]
      omega

/-- Replaces marked tags by calls; the children of a tag go into the block of its call. -/
def renderReferences (namespacePath : Text) : List Token → List Token
  | [] => []
  | token :: rest =>
    let tag := parseTag token.text
    match isOpenTag token, tag.get? Markup.componentMarker with
    | true, some marker =>
      let call := renderCall namespacePath marker.value (tag.erase Markup.componentMarker)
      if tag.selfClosing then
        ⟨.output, "<%= " ++ call ++ " %>"⟩ :: renderReferences namespacePath rest
      else
        let inner := renderReferences namespacePath (splitAtClose tag.name 1 rest).1
        let after := renderReferences namespacePath (splitAtClose tag.name 1 rest).2
        if isBlankText (render inner) then ⟨.output, "<%= " ++ call ++ " %>"⟩ :: after
        else
          ⟨.output, "<%= " ++ call ++ " do %>"⟩ :: inner ++ ⟨.code, "<% end %>"⟩ :: after
    | _, _ => token :: renderReferences namespacePath rest
termination_by tokens => tokens.length
decreasing_by
  all_goals
    have := length_splitAtClose_le (parseTag token.text).name 1 rest
    simp only [List.length_cons]
    omega

def renderComponentReferences (namespaceName template : Text) : Text :=
  render (renderReferences (Naming.constantPath namespaceName) (tokenize template))

end ViewForge.Template
