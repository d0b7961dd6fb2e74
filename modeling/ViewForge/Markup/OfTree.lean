import ViewForge.Markup.Spacing
import ViewForge.Source.Scope

set_option linter.unusedVariables false

namespace ViewForge.Markup

open Text Source

def textBetween (source : Text) (start stop : Nat) : List Node :=
  let value := cleanText (slice source start stop)
  if value.isEmpty then [] else [.text value]

def isStructural (t : Tree) : Bool :=
  t.isNamed && !(t.kind == .openingTag || t.kind == .closingTag || t.kind == .text ||
    t.kind == .characterReference || t.kind == .comment)

/-- The name of a tag without white space; a fragment has none. -/
def tagText (source : Text) (tag : Tree) : Text :=
  ((tag.child? .name).map fun t ↦ (t.textIn source).filter (!isBlank ·)).getD []

def firstOfKind (t : Tree) (kind : Kind) : Option Tree := t.children.find? (·.kind == kind)

def contentStart (t : Tree) : Nat := ((firstOfKind t .openingTag).map Tree.stop).getD t.start

def contentStop (t : Tree) : Nat := ((firstOfKind t .closingTag).map Tree.start).getD t.stop

def chainBase? (t : Tree) : Option Tree :=
  if t.kind == .member || t.kind == .subscript then t.child? .object
  else if t.kind == .call then t.child? .function
  else if t.kind == .nonNull then t.parts.head?
  else none

theorem size_lt_of_chainBase? {t base : Tree} (h : chainBase? t = some base) :
    base.size < t.size := by
  unfold chainBase? at h
  split at h
  · exact Tree.size_lt_of_child? h
  · split at h
    · exact Tree.size_lt_of_child? h
    · split at h
      · exact Tree.size_lt_of_mem_parts (List.mem_of_mem_head? h)
      · cases h

def memberRoot (source : Text) (t : Tree) : Option Text :=
  if t.unwrapped.kind == .identifier then some (t.unwrapped.textIn source)
  else
    match h : chainBase? t.unwrapped with
    | none => none
    | some base => memberRoot source base
termination_by t.size
decreasing_by
  have h₁ := t.size_unwrapped_le
  have h₂ := size_lt_of_chainBase? h
  omega

def Param.ofTree (source : Text) (t : Tree) : Param where
  name :=
    if t.parameterTarget.kind == .identifier then some (t.parameterTarget.textIn source) else none
  source := t.textIn source

def literalKind? : Kind → Option LiteralKind
  | .string => some .string
  | .template => some .template
  | .number => some .number
  | .trueWord => some (.boolean true)
  | .falseWord => some (.boolean false)
  | .null => some .null
  | .undefined => some .undefined
  | .regex => some .regex
  | _ => none

def logicalOp? (source : Text) (t : Tree) : Option LogicalOp :=
  match (t.child? .operator).map fun o ↦ String.ofList (o.textIn source) with
  | some "&&" => some .and
  | some "||" => some .or
  | some "??" => some .coalesce
  | _ => none

def calledMethod? (callee : Tree) : Option (Tree × Tree) :=
  if callee.kind == .member then
    match callee.child? .property, callee.child? .object with
    | some property, some object => some (property, object)
    | _, _ => none
  else none

theorem size_lt_of_calledMethod? {callee property object : Tree}
    (h : calledMethod? callee = some (property, object)) : object.size < callee.size := by
  unfold calledMethod? at h
  split at h
  · split at h
    · rename_i ho
      simp only [Option.some.injEq, Prod.mk.injEq] at h
      obtain ⟨rfl, rfl⟩ := h
      exact Tree.size_lt_of_child? ho
    · cases h
  · cases h

def spreadArgument (t : Tree) : Tree :=
  if t.kind == .spread then t.parts.head?.getD t else t

theorem size_spreadArgument_le (t : Tree) : (spreadArgument t).size ≤ t.size := by
  unfold spreadArgument
  split
  · cases h : t.parts.head? with
    | none => exact Nat.le_refl _
    | some u => exact Nat.le_of_lt (Tree.size_lt_of_mem_parts (List.mem_of_mem_head? h))
  · exact Nat.le_refl _

mutual

def Node.ofTree (source : Text) (t : Tree) : Node :=
  if t.kind == .selfClosingElement then
    .element (tagText source t) (attributesOf source t.children) [] true
  else
    let children := contentOf source (contentStart t) (contentStop t) t.children
    match h : firstOfKind t .openingTag with
    | none => .fragment children
    | some tag =>
      if (tag.child? .name).isNone then .fragment children
      else .element (tagText source tag) (attributesOf source tag.children) children false
termination_by 3 * t.size
decreasing_by
  · rw [t.size_eq]
    omega
  · rw [t.size_eq]
    omega
  · have h₁ := Tree.size_lt_of_mem_children (List.mem_of_find?_eq_some h)
    rw [tag.size_eq] at h₁
    omega

/-- The content of an element from a place on: its structural children and the text around
them. -/
def contentOf (source : Text) (cursor stop : Nat) : List Tree → List Node
  | [] => textBetween source cursor stop
  | t :: rest =>
    if isStructural t then
      textBetween source cursor t.start ++ childOf source t :: contentOf source t.stop stop rest
    else contentOf source cursor stop rest
termination_by ts => 3 * Tree.sizes ts + 2
decreasing_by
  · rw [Tree.sizes]
    omega
  · rw [Tree.sizes, t.size_eq]
    omega
  · rw [Tree.sizes, t.size_eq]
    omega

def childOf (source : Text) (t : Tree) : Node :=
  if t.isMarkup then .ofTree source t
  else if t.kind == .container then .container (containedOf source t)
  else .unsupported t.kind.label (t.textIn source)
termination_by 3 * t.size + 1

def containedOf (source : Text) (t : Tree) : Option Expr :=
  match h : t.parts.head? with
  | none => none
  | some inner => some (.ofTree source inner)
termination_by 3 * t.size
decreasing_by
  have := Tree.size_lt_of_mem_parts (List.mem_of_mem_head? h)
  omega

def attributesOf (source : Text) : List Tree → List Attribute
  | [] => []
  | t :: rest =>
    let more := attributesOf source rest
    if t.kind == .attribute then
      let name := ((t.child? .name).map (·.textIn source)).getD []
      match h : t.child? .value with
      | none => .named name none :: more
      | some value => .named name (some (valueOf source value)) :: more
    else if t.kind == .container then
      match h : t.parts.head? with
      | none => more
      | some inner => .spread (.ofTree source (spreadArgument inner)) :: more
    else more
termination_by ts => 3 * Tree.sizes ts + 2
decreasing_by
  · rw [Tree.sizes, t.size_eq]
    omega
  · have := Tree.size_lt_of_child? h
    rw [Tree.sizes]
    omega
  · have h₁ := Tree.size_lt_of_mem_parts (List.mem_of_mem_head? h)
    have h₂ := size_spreadArgument_le inner
    rw [Tree.sizes]
    omega

def valueOf (source : Text) (t : Tree) : Value :=
  if t.kind == .string then .string ((t.textIn source).drop 1).dropLast
  else if t.kind == .container then .expression (containedOf source t)
  else .unsupported t.kind.label (t.textIn source)
termination_by 3 * t.size + 1

/-- An expression, without parentheses around it. -/
def Expr.ofTree (source : Text) (t : Tree) : Expr :=
  let target := t.unwrapped
  let text := target.textIn source
  let refs := target.refs source
  let other := Expr.other text refs target.kind.label
  if target.kind == .identifier then .identifier text refs text
  else if target.kind == .member || target.kind == .subscript then
    .member text refs (memberRoot source target)
  else if target.kind == .ternary then
    match h₁ : target.child? .condition, h₂ : target.child? .consequence,
      h₃ : target.child? .alternative with
    | some test, some consequent, some alternate =>
      .conditional text refs (.ofTree source test) (.ofTree source consequent)
        (.ofTree source alternate)
    | _, _, _ => other
  else if target.kind == .binary then
    match logicalOp? source target, h₁ : target.child? .left, h₂ : target.child? .right with
    | some operator, some left, some right =>
      .logical text refs operator (.ofTree source left) (.ofTree source right)
    | _, _, _ => other
  else if target.kind == .call then
    match h₁ : target.child? .function, h₂ : target.child? .arguments with
    | some callee, some arguments =>
      let arguments :=
        if arguments.kind == .arguments then expressionsOf source arguments.parts else []
      let called := .ofTree source callee.unwrapped
      match h₃ : calledMethod? callee.unwrapped with
      | some (property, object) =>
        .call text refs called arguments (some (property.textIn source))
          (some (.ofTree source object))
      | none => .call text refs called arguments none none
    | _, _ => other
  else if target.isFunction then
    let params := target.functionParameters.map (Param.ofTree source)
    match h : target.child? .body with
    | none => .function text refs params none (some [])
    | some body =>
      if body.kind == .block then .function text refs params none (some (body.textIn source))
      else .function text refs params (some (.ofTree source body)) none
  else if target.isMarkup then .markup text refs (.ofTree source target)
  else
    match literalKind? target.kind with
    | some kind => .literal text refs kind
    | none => other
termination_by 3 * t.size + 1
decreasing_by
  all_goals have hle : target.size ≤ t.size := t.size_unwrapped_le
  · have := Tree.size_lt_of_child? h₁
    omega
  · have := Tree.size_lt_of_child? h₂
    omega
  · have := Tree.size_lt_of_child? h₃
    omega
  · have := Tree.size_lt_of_child? h₁
    omega
  · have := Tree.size_lt_of_child? h₂
    omega
  · have h₄ := Tree.size_lt_of_child? h₂
    have h₅ := arguments.sizes_parts_lt
    omega
  · have h₄ := Tree.size_lt_of_child? h₁
    have h₅ := callee.size_unwrapped_le
    omega
  · have h₄ := Tree.size_lt_of_child? h₁
    have h₅ := callee.size_unwrapped_le
    have h₆ := size_lt_of_calledMethod? h₃
    omega
  · have := Tree.size_lt_of_child? h
    omega
  · have := t.size_unwrapped_le
    omega

def expressionsOf (source : Text) : List Tree → List Expr
  | [] => []
  | t :: rest => .ofTree source t :: expressionsOf source rest
termination_by ts => 3 * Tree.sizes ts + 2
decreasing_by
  · rw [Tree.sizes]
    omega
  · rw [Tree.sizes, t.size_eq]
    omega

end

def rootsOf (parsed : Parsed) : List Node :=
  parsed.root.outermostMarkup.map (Node.ofTree parsed.source)

end ViewForge.Markup
