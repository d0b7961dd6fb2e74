import ViewForge.Source.Dialect

namespace ViewForge.Source

open Text

inductive Kind where
  | program
  | identifier
  | propertyIdentifier
  | privateIdentifier
  | shorthandProperty
  | shorthandPattern
  | this
  | super
  | importWord
  | string
  | template
  | substitution
  | number
  | trueWord
  | falseWord
  | null
  | undefined
  | regex
  | member
  | subscript
  | call
  | new
  | metaProperty
  | ternary
  | binary
  | unary
  | update
  | assignment
  | augmentedAssignment
  | await
  | yield
  | sequence
  | parenthesized
  | array
  | object
  | pair
  | method
  | spread
  | arrow
  | functionExpression
  | generatorFunction
  | classExpression
  | asExpression
  | satisfiesExpression
  | nonNull
  | arguments
  | objectPattern
  | arrayPattern
  | pairPattern
  | objectAssignmentPattern
  | assignmentPattern
  | restPattern
  | computedKey
  | parameters
  | requiredParameter
  | optionalParameter
  | block
  | declarator
  | functionDeclaration
  | generatorDeclaration
  | classDeclaration
  | importStatement
  | importSpecifier
  | exportStatement
  | statement
  | clause
  | typeExpression
  | element
  | selfClosingElement
  | openingTag
  | closingTag
  | attribute
  | container
  | namespaceName
  | text
  | characterReference
  | comment
  | error
  | operator
  | defaultWord
  deriving DecidableEq, Repr

def Kind.label : Kind → Text
  | .program => "program"
  | .identifier => "identifier"
  | .propertyIdentifier => "property_identifier"
  | .privateIdentifier => "private_property_identifier"
  | .shorthandProperty => "shorthand_property_identifier"
  | .shorthandPattern => "shorthand_property_identifier_pattern"
  | .this => "this"
  | .super => "super"
  | .importWord => "import"
  | .string => "string"
  | .template => "template_string"
  | .substitution => "template_substitution"
  | .number => "number"
  | .trueWord => "true"
  | .falseWord => "false"
  | .null => "null"
  | .undefined => "undefined"
  | .regex => "regex"
  | .member => "member_expression"
  | .subscript => "subscript_expression"
  | .call => "call_expression"
  | .new => "new_expression"
  | .metaProperty => "meta_property"
  | .ternary => "ternary_expression"
  | .binary => "binary_expression"
  | .unary => "unary_expression"
  | .update => "update_expression"
  | .assignment => "assignment_expression"
  | .augmentedAssignment => "augmented_assignment_expression"
  | .await => "await_expression"
  | .yield => "yield_expression"
  | .sequence => "sequence_expression"
  | .parenthesized => "parenthesized_expression"
  | .array => "array"
  | .object => "object"
  | .pair => "pair"
  | .method => "method_definition"
  | .spread => "spread_element"
  | .arrow => "arrow_function"
  | .functionExpression => "function_expression"
  | .generatorFunction => "generator_function"
  | .classExpression => "class"
  | .asExpression => "as_expression"
  | .satisfiesExpression => "satisfies_expression"
  | .nonNull => "non_null_expression"
  | .arguments => "arguments"
  | .objectPattern => "object_pattern"
  | .arrayPattern => "array_pattern"
  | .pairPattern => "pair_pattern"
  | .objectAssignmentPattern => "object_assignment_pattern"
  | .assignmentPattern => "assignment_pattern"
  | .restPattern => "rest_pattern"
  | .computedKey => "computed_property_name"
  | .parameters => "formal_parameters"
  | .requiredParameter => "required_parameter"
  | .optionalParameter => "optional_parameter"
  | .block => "statement_block"
  | .declarator => "variable_declarator"
  | .functionDeclaration => "function_declaration"
  | .generatorDeclaration => "generator_function_declaration"
  | .classDeclaration => "class_declaration"
  | .importStatement => "import_statement"
  | .importSpecifier => "import_specifier"
  | .exportStatement => "export_statement"
  | .statement => "statement"
  | .clause => "clause"
  | .typeExpression => "type"
  | .element => "jsx_element"
  | .selfClosingElement => "jsx_self_closing_element"
  | .openingTag => "jsx_opening_element"
  | .closingTag => "jsx_closing_element"
  | .attribute => "jsx_attribute"
  | .container => "jsx_expression"
  | .namespaceName => "jsx_namespace_name"
  | .text => "jsx_text"
  | .characterReference => "html_character_reference"
  | .comment => "comment"
  | .error => "ERROR"
  | .operator => "operator"
  | .defaultWord => "default"

inductive Role where
  | none
  | condition
  | consequence
  | alternative
  | operator
  | left
  | right
  | function
  | arguments
  | property
  | object
  | parameter
  | parameters
  | body
  | value
  | pattern
  | name
  | key
  | source
  deriving DecidableEq, Repr

inductive Tree where
  | node (kind : Kind) (role : Role) (start stop : Nat) (children : List Tree)

namespace Tree

def kind : Tree → Kind
  | .node k .. => k

def role : Tree → Role
  | .node _ r .. => r

def start : Tree → Nat
  | .node _ _ s _ _ => s

def stop : Tree → Nat
  | .node _ _ _ s _ => s

def children : Tree → List Tree
  | .node _ _ _ _ cs => cs

def withRole (role : Role) : Tree → Tree
  | .node k _ s e cs => .node k role s e cs

def child? (t : Tree) (role : Role) : Option Tree := t.children.find? (·.role == role)

def isNamed (t : Tree) : Bool := t.kind != .operator && t.kind != .defaultWord

def parts (t : Tree) : List Tree := t.children.filter fun c ↦ c.isNamed && c.kind != .comment

def isMarkup (t : Tree) : Bool := t.kind == .element || t.kind == .selfClosingElement

def isFunction (t : Tree) : Bool :=
  t.kind == .arrow || t.kind == .functionExpression || t.kind == .generatorFunction

mutual

def size : Tree → Nat
  | .node _ _ _ _ cs => sizes cs + 1

def sizes : List Tree → Nat
  | [] => 0
  | t :: r => t.size + sizes r

end

theorem sizes_append (a b : List Tree) : sizes (a ++ b) = sizes a + sizes b := by
  induction a with
  | nil => simp [sizes]
  | cons t r ih =>
    simp only [List.cons_append, sizes, ih]
    omega

theorem size_eq (t : Tree) : t.size = sizes t.children + 1 := by
  cases t
  simp [size, children]

/-- Every node of some trees, each before its descendants and the descendants in order. -/
def walkFrom : List Tree → List Tree
  | [] => []
  | t :: rest => t :: walkFrom (t.children ++ rest)
termination_by pending => sizes pending
decreasing_by
  rw [sizes_append, sizes, size_eq]
  omega

def walk (t : Tree) : List Tree := walkFrom [t]

def outermostFrom : List Tree → List Tree
  | [] => []
  | t :: rest =>
    if t.isMarkup then t :: outermostFrom rest else outermostFrom (t.children ++ rest)
termination_by pending => sizes pending
decreasing_by
  · rw [sizes, size_eq]
    omega
  · rw [sizes_append, sizes, size_eq]
    omega

def outermostMarkup (t : Tree) : List Tree := outermostFrom [t]

/-- An expression without the parentheses around it. -/
def unwrapped : Tree → Tree
  | .node k r s e cs =>
    if k == .parenthesized then
      match single cs with
      | some t => t
      | none => .node k r s e cs
    else .node k r s e cs
where
  /-- The only part among some children, unwrapped. -/
  single : List Tree → Option Tree
    | [] => none
    | t :: rest =>
      if t.isNamed && t.kind != .comment then
        if rest.all fun c ↦ !c.isNamed || c.kind == .comment then some (unwrapped t) else none
      else single rest

theorem size_le_sizes {t : Tree} {ts : List Tree} (h : t ∈ ts) : t.size ≤ sizes ts := by
  induction ts with
  | nil => cases h
  | cons u r ih =>
    rw [sizes]
    rcases List.mem_cons.1 h with rfl | h
    · omega
    · have := ih h
      omega

theorem size_lt_of_mem_children {t c : Tree} (h : c ∈ t.children) : c.size < t.size := by
  rw [size_eq t]
  exact Nat.lt_succ_of_le (size_le_sizes h)

theorem size_lt_of_child? {t c : Tree} {r : Role} (h : t.child? r = some c) : c.size < t.size :=
  size_lt_of_mem_children (List.mem_of_find?_eq_some h)

theorem size_lt_of_mem_parts {t c : Tree} (h : c ∈ t.parts) : c.size < t.size :=
  size_lt_of_mem_children (List.mem_filter.1 h).1

theorem sizes_filter_le (p : Tree → Bool) (ts : List Tree) : sizes (ts.filter p) ≤ sizes ts := by
  induction ts with
  | nil => simp
  | cons t r ih =>
    rw [List.filter_cons]
    split
    · simp only [sizes]
      omega
    · simp only [sizes]
      omega

theorem sizes_parts_lt (t : Tree) : sizes t.parts < t.size := by
  rw [size_eq t]
  exact Nat.lt_succ_of_le (sizes_filter_le _ _)

mutual

theorem size_unwrapped_le (t : Tree) : t.unwrapped.size ≤ t.size := by
  cases t with
  | node k r s e cs =>
    rw [unwrapped]
    split
    · split
      · rename_i u h
        have := size_single_le cs h
        simp only [size]
        omega
      · exact Nat.le_refl _
    · exact Nat.le_refl _

theorem size_single_le (cs : List Tree) {u : Tree} (h : unwrapped.single cs = some u) :
    u.size ≤ sizes cs := by
  cases cs with
  | nil => simp [unwrapped.single] at h
  | cons t r =>
    rw [unwrapped.single] at h
    rw [sizes]
    split at h
    · split at h
      · have := size_unwrapped_le t
        simp only [Option.some.injEq] at h
        subst h
        omega
      · cases h
    · have := size_single_le r h
      omega

end

end Tree

/-- A source with its tree. `flawed` says that some of it could not be read. -/
structure Parsed where
  path : Text
  source : Text
  root : Tree
  flawed : Bool

def slice (source : Text) (start stop : Nat) : Text := (source.drop start).take (stop - start)

def Tree.textIn (t : Tree) (source : Text) : Text := slice source t.start t.stop

end ViewForge.Source
