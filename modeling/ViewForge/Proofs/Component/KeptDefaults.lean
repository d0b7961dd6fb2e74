import ViewForge.Component.Build
import ViewForge.Component.OfSource
import ViewForge.Proofs.Ruby.Constructor

namespace ViewForge

open Text Source

/-- The name of an entry of an object pattern and its default, if it has one. -/
def defaultOf? (source : Text) (t : Tree) : Option (Text × Tree) :=
  match t.kind with
  | .objectAssignmentPattern => do
    let left ← t.child? .left
    let right ← t.child? .right
    return (left.textIn source, right)
  | .pairPattern => do
    let key ← t.child? .key
    let value ← t.child? .value
    if value.kind == .assignmentPattern then
      let right ← value.child? .right
      return (Ruby.keyName source key, right)
    else none
  | _ => none

def mention (name : Text) : Text := "Prop '" ++ name ++ ['\'']

section Inference

variable {source text : Text} {d : Tree}

theorem inferDefault_of_some (h : Ruby.literalOf? source d = some text) :
    ∃ type, inferDefault source d = (type, some text) ∧ (type = .any → text = "nil") := by
  have hkind := h
  rw [Ruby.literalOf?] at hkind
  rw [inferDefault, h]
  have hother {type : ValueType} (h : type ≠ .any) : type = .any → text = "nil" :=
    fun hany ↦ absurd hany h
  split at hkind
  case h_1 | h_2 => exact ⟨.string, rfl, hother (by decide)⟩
  case h_3 | h_4 => exact ⟨.number, rfl, hother (by decide)⟩
  case h_5 | h_6 => exact ⟨.boolean, rfl, hother (by decide)⟩
  case h_7 | h_8 => exact ⟨.any, rfl, fun _ ↦ (Option.some.inj hkind).symm⟩
  case h_9 => exact ⟨.array, rfl, hother (by decide)⟩
  case h_10 => exact ⟨.object, rfl, hother (by decide)⟩
  case h_11 => cases hkind

/-- Without a literal, only a list or an object has a default all the same. -/
theorem inferDefault_of_none (h : Ruby.literalOf? source d = none) :
    (inferDefault source d).2 = none ∨
      ∃ type text, inferDefault source d = (type, some text) ∧
        (type == .array || type == .object) = true := by
  rw [inferDefault, h]
  dsimp only
  split
  case h_9 => exact .inr ⟨.array, _, rfl, rfl⟩
  case h_10 => exact .inr ⟨.object, _, rfl, rfl⟩
  all_goals exact .inl rfl

theorem defaultedProperty_of_some (name : Text) (h : Ruby.literalOf? source d = some text) :
    ∃ p, defaultedProperty source name d = (p, none) ∧ p.name = name ∧ p.required = false ∧
      p.isRest = false ∧ p.rubyDefault = text := by
  obtain ⟨type, hinfer, hany⟩ := inferDefault_of_some h
  refine ⟨{ name, type, required := false, default := some text }, ?_, rfl, rfl, rfl, ?_⟩
  · rw [defaultedProperty, hinfer]
    simp only [h, Option.isNone_some, Bool.and_false, Bool.false_eq_true, if_false]
  · simp only [Property.rubyDefault, beq_iff_eq]
    split
    next htype => exact (hany htype).symm
    next => rfl

theorem isPrefix_mention (name : Text) {said : Text} (h : ['\''] <+: said) (more : Text) :
    mention name <+: "Prop '" ++ name ++ said ++ more :=
  ((List.prefix_append_right_inj _).2 h).trans (List.prefix_append _ more)

theorem mention_computedDefaultWarning (name source : Text) :
    mention name <+: computedDefaultWarning name source := by
  have hsaid : ['\''] <+: ("' has a non-literal default value: " : Text) := by decide
  exact (isPrefix_mention name hsaid source).trans (List.prefix_append _ _)

theorem mention_computedEntriesWarning (name source default : Text) :
    mention name <+: computedEntriesWarning name source default := by
  have hsaid : ['\''] <+: ("' has a default with non-literal entries: " : Text) := by decide
  have hstart := (isPrefix_mention name hsaid source).trans
    (List.prefix_append _ ". It defaults to ")
  exact (hstart.trans (List.prefix_append _ default)).trans (List.prefix_append _ _)

theorem defaultedProperty_of_none (name : Text) (h : Ruby.literalOf? source d = none) :
    ∃ p message, defaultedProperty source name d = (p, some message) ∧ p.name = name ∧
      p.required = false ∧ p.isRest = false ∧ mention name <+: message := by
  rcases inferDefault_of_none h with hnone | ⟨type, text, hinfer, hlist⟩
  · obtain ⟨type, hinfer⟩ : ∃ type, inferDefault source d = (type, none) :=
      ⟨_, Prod.ext rfl hnone⟩
    refine ⟨{ name, required := false, default := some (d.textIn source) },
      computedDefaultWarning name (d.textIn source), ?_, rfl, rfl, rfl,
      mention_computedDefaultWarning name _⟩
    rw [defaultedProperty, hinfer]
  · refine ⟨{ name, type, required := false, default := some text },
      computedEntriesWarning name (d.textIn source) text, ?_, rfl, rfl, rfl,
      mention_computedEntriesWarning name _ text⟩
    rw [defaultedProperty, hinfer]
    simp only [h, Option.isNone_none, Bool.and_true, hlist, if_true]

end Inference

section Entries

variable {source name : Text} {t d : Tree} {q : Property × Option Text} {before after : List Tree}

theorem propertyOf?_of_defaultOf? (h : defaultOf? source t = some (name, d)) :
    propertyOf? source t = some (defaultedProperty source name d) := by
  unfold defaultOf? at h
  split at h
  next heq =>
    simp only [Option.bind_eq_bind, Option.bind_eq_some_iff] at h
    obtain ⟨left, hleft, right, hright, h⟩ := h
    cases h
    simp only [propertyOf?, heq, hleft, hright]
    rfl
  next heq =>
    simp only [Option.bind_eq_bind, Option.bind_eq_some_iff] at h
    obtain ⟨key, hkey, value, hvalue, h⟩ := h
    split at h
    next hkind =>
      obtain ⟨right, hright, h⟩ := Option.bind_eq_some_iff.1 h
      cases h
      have hkeyed : keyedProperty source (Ruby.keyName source key) value =
          defaultedProperty source (Ruby.keyName source key) d := by
        rw [keyedProperty, beq_iff_eq.1 hkind, hright]
      rw [← hkeyed]
      simp only [propertyOf?, heq, hkey, hvalue]
      rfl
    next => cases h
  next => cases h

/-- The first entry of its name is taken, whatever stands behind it. -/
theorem mem_propertiesFrom {seen : List Text} (h : propertyOf? source t = some q)
    (hseen : q.1.name ∉ seen)
    (hnew : ∀ u ∈ before, ∀ r ∈ propertyOf? source u, r.1.name ≠ q.1.name) :
    q ∈ propertiesFrom source seen (before ++ t :: after) := by
  -- Every entry before it may add its name to those seen, but none adds the name in question.
  induction before generalizing seen with
  | nil =>
    rw [List.nil_append, propertiesFrom, h]
    dsimp only
    rw [if_neg (by simpa using hseen)]
    exact List.mem_cons_self
  | cons u before ih =>
    rw [List.forall_mem_cons] at hnew
    rw [List.cons_append, propertiesFrom]
    split
    next => exact ih hseen hnew.2
    next property warning hu =>
      split
      next => exact ih hseen hnew.2
      next =>
        have hname : q.1.name ∉ property.name :: seen := by
          rw [List.mem_cons, not_or]
          exact ⟨(hnew.1 _ hu).symm, hseen⟩
        exact List.mem_cons_of_mem _ (ih hname hnew.2)

end Entries

def Definition.IsReadFrom (definition : Definition) (source : Text) (function : Tree) : Prop :=
  ∃ parsed candidate, parsed.source = source ∧ candidate.function = function ∧
    chosenCandidate? parsed = some candidate ∧ ofParsed? parsed = some definition

section Recording

variable {source : Text} {function : Tree} {definition : Definition} {p : Property}
  {warning : Option Text}

theorem Definition.IsReadFrom.mem (h : definition.IsReadFrom source function)
    (hp : (p, warning) ∈ propertiesOf source function) :
    p ∈ definition.props ∧ ∀ message ∈ warning, message ∈ definition.warnings := by
  obtain ⟨parsed, candidate, rfl, rfl, hchosen, hdefinition⟩ := h
  rw [Definition.ofParsed?, hchosen] at hdefinition
  cases hdefinition
  refine ⟨List.mem_map_of_mem hp, fun message hmessage ↦ ?_⟩
  have hwarning : message ∈ (propertiesOf parsed.source candidate.function).filterMap (·.2) :=
    List.mem_filterMap.2 ⟨(p, warning), hp, hmessage⟩
  simp only [List.mem_append]
  exact .inl (.inl (.inl (.inr hwarning)))

/-- The constructor declares every prop that is no slot, the optional ones with their defaults. -/
theorem Ruby.mem_constructorParameters {c : Component} (h : p ∈ c.props)
    (hrequired : p.required = false) (hrest : p.isRest = false)
    (hslot : c.isSlotted p.name = false) :
    p.name ++ ": " ++ p.rubyDefault ∈ Ruby.constructorParameters c := by
  have hclass : p ∈ c.classProps := by
    have hoptional : p ∈ c.optionalProps := List.mem_filter.2 ⟨h, by rw [hrequired, hrest]; rfl⟩
    refine List.mem_filter.2 ⟨?_, by rw [hslot]; rfl⟩
    exact List.mem_append_left _ (List.mem_append_right _ hoptional)
  have hregular : p ∈ c.classProps.filter (!·.isRest) :=
    List.mem_filter.2 ⟨hclass, by rw [hrest]; rfl⟩
  have htext : Ruby.parameter p = p.name ++ ": " ++ p.rubyDefault := by
    rw [Ruby.parameter, hrequired]
    rfl
  rw [Ruby.constructorParameters, ← htext]
  exact List.mem_append_left _ (List.mem_append_left _ (List.mem_map_of_mem hregular))

/-- What the first parameter says reaches the constructor and the warnings of the component. -/
theorem Definition.IsReadFrom.reaches (h : definition.IsReadFrom source function)
    (hp : (p, warning) ∈ propertiesOf source function) (hrequired : p.required = false)
    (hrest : p.isRest = false) (withSlots : Bool) :
    ((Component.ofDefinition withSlots definition).isSlotted p.name = false →
      p.name ++ ": " ++ p.rubyDefault ∈
        Ruby.constructorParameters (.ofDefinition withSlots definition)) ∧
    ∀ message ∈ warning, message ∈ (Component.ofDefinition withSlots definition).warnings := by
  obtain ⟨hmem, hwarning⟩ := h.mem hp
  have hnormal : p ∈ (Component.ofDefinition withSlots definition).props :=
    List.mem_append_left _ (List.mem_filter.2 ⟨hmem, by rw [hrest]; rfl⟩)
  refine ⟨Ruby.mem_constructorParameters hnormal hrequired hrest, fun message hmessage ↦ ?_⟩
  exact List.mem_append_left _ (List.mem_append_left _ (hwarning message hmessage))

end Recording

/-- The first entry of its name with a default makes an optional prop. If the default is a literal,
it is that of the constructor; else a warning that names the prop is recorded. -/
theorem propertiesOf_keepsDefault {source name : Text} {function first t d : Tree}
    {before after : List Tree} (hfirst : function.functionParameters.head? = some first)
    (hpattern : first.parameterTarget.kind = .objectPattern)
    (hparts : first.parameterTarget.parts = before ++ t :: after)
    (hdefault : defaultOf? source t = some (name, d))
    (hnew : ∀ u ∈ before, ∀ q ∈ propertyOf? source u, q.1.name ≠ name) :
    ∃ p warning, (p, warning) ∈ propertiesOf source function ∧ p.name = name ∧
      p.required = false ∧ p.isRest = false ∧
      (Ruby.literalOf? source d = some p.rubyDefault ∨
        Ruby.literalOf? source d = none ∧ ∃ message, warning = some message ∧
          mention name <+: message) ∧
      ∀ definition : Definition, definition.IsReadFrom source function → ∀ withSlots : Bool,
        ((Component.ofDefinition withSlots definition).isSlotted name = false →
          name ++ ": " ++ p.rubyDefault ∈
            Ruby.constructorParameters (.ofDefinition withSlots definition)) ∧
        ∀ message ∈ warning, message ∈ (Component.ofDefinition withSlots definition).warnings := by
  obtain ⟨others, hparameters⟩ := List.head?_eq_some_iff.1 hfirst
  have hentries : propertiesOf source function =
      propertiesFrom source [] (before ++ t :: after) := by
    rw [propertiesOf, hparameters, ← hparts]
    simp only [hpattern, beq_self_eq_true, if_true]
  have htaken {q : Property × Option Text} (hq : defaultedProperty source name d = q)
      (hname : q.1.name = name) : q ∈ propertiesOf source function := by
    rw [hentries]
    refine mem_propertiesFrom (hq ▸ propertyOf?_of_defaultOf? hdefault) List.not_mem_nil ?_
    rwa [hname]
  cases hliteral : Ruby.literalOf? source d with
  | some text =>
    obtain ⟨p, hp, rfl, hrequired, hrest, rfl⟩ := defaultedProperty_of_some name hliteral
    have hmem := htaken hp rfl
    exact ⟨p, none, hmem, rfl, hrequired, hrest, .inl rfl,
      fun _ hread ↦ hread.reaches hmem hrequired hrest⟩
  | none =>
    obtain ⟨p, message, hp, rfl, hrequired, hrest, hmention⟩ :=
      defaultedProperty_of_none name hliteral
    have hmem := htaken hp rfl
    exact ⟨p, some message, hmem, rfl, hrequired, hrest, .inr ⟨rfl, message, rfl, hmention⟩,
      fun _ hread ↦ hread.reaches hmem hrequired hrest⟩

/-- A negative number in parentheses under a quoted key, and a list that shows another prop. -/
def boxSource : Text := "(\x7bkey, 'size': n = (- 2), data = [key]\x7d) => <p/>"

def sizeDefault : Tree :=
  .node .parenthesized .right 19 24 [.node .unary .none 20 23 [.node .number .none 22 23 []]]

def dataDefault : Tree := .node .array .right 33 38 [.node .identifier .none 34 37 []]

def keyEntry : Tree := .node .shorthandPattern .none 2 5 []

def sizeEntry : Tree :=
  .node .pairPattern .none 7 24
    [.node .string .key 7 13 [],
     .node .assignmentPattern .value 15 24 [.node .identifier .left 15 16 [], sizeDefault]]

def dataEntry : Tree :=
  .node .objectAssignmentPattern .none 26 38
    [.node .shorthandPattern .left 26 30 [], dataDefault]

def boxPattern : Tree := .node .objectPattern .none 1 39 [keyEntry, sizeEntry, dataEntry]

def boxFunction : Tree :=
  .node .arrow .value 0 48
    [.node .parameters .parameters 0 40 [boxPattern],
     .node .selfClosingElement .body 44 48 [.node .identifier .name 45 46 []]]

theorem propertiesOf_keepsDefault_box :
    (∃ p warning, (p, warning) ∈ propertiesOf boxSource boxFunction ∧ p.name = "size" ∧
      p.required = false ∧ p.rubyDefault = "-2") ∧
    ∃ p message, (p, some message) ∈ propertiesOf boxSource boxFunction ∧ p.name = "data" ∧
      p.required = false ∧ mention "data" <+: message := by
  have hsize : Ruby.literalOf? boxSource sizeDefault = some "-2" := by
    rw [Ruby.literalOf?]
    rfl
  have hdata : Ruby.literalOf? boxSource dataDefault = none := by
    have hitem : Ruby.literalOf? boxSource (.node .identifier .none 34 37 []) = none := by
      rw [Ruby.literalOf?]
      rfl
    have hitems : Ruby.itemsOf? boxSource [.node .identifier .none 34 37 []] = none := by
      rw [Ruby.itemsOf?, hitem]
      rfl
    rw [Ruby.literalOf?]
    exact congrArg (Option.map _) hitems
  have hfirst : boxFunction.functionParameters.head? = some boxPattern := rfl
  have hkey {name : Text} (h : "key" ≠ name) :
      ∀ q ∈ propertyOf? boxSource keyEntry, q.1.name ≠ name := by
    rintro q ⟨⟩
    exact h
  have hother : ∀ q ∈ propertyOf? boxSource sizeEntry, q.1.name ≠ "data" := by
    have hproperty : propertyOf? boxSource sizeEntry =
        some (defaultedProperty boxSource "size" sizeDefault) := rfl
    rintro q hq
    obtain ⟨p, hp, hname, -⟩ := defaultedProperty_of_some "size" hsize
    rw [hproperty, hp] at hq
    cases hq
    rw [hname]
    decide
  constructor
  · have hparts : boxPattern.parameterTarget.parts = [keyEntry] ++ sizeEntry :: [dataEntry] := rfl
    have hdefault : defaultOf? boxSource sizeEntry = some (("size" : Text), sizeDefault) := rfl
    have hnew : ∀ u ∈ [keyEntry], ∀ q ∈ propertyOf? boxSource u, q.1.name ≠ "size" :=
      List.forall_mem_singleton.2 (hkey (by decide))
    obtain ⟨p, warning, hmem, hname, hrequired, -, hcase | hcase, -⟩ :=
      propertiesOf_keepsDefault hfirst rfl hparts hdefault hnew
    · exact ⟨p, warning, hmem, hname, hrequired, Option.some.inj (hcase.symm.trans hsize)⟩
    · cases hcase.1.symm.trans hsize
  · have hparts : boxPattern.parameterTarget.parts = [keyEntry, sizeEntry] ++ [dataEntry] := rfl
    have hdefault : defaultOf? boxSource dataEntry = some (("data" : Text), dataDefault) := rfl
    have hnew : ∀ u ∈ [keyEntry, sizeEntry], ∀ q ∈ propertyOf? boxSource u, q.1.name ≠ "data" :=
      List.forall_mem_cons.2 ⟨hkey (by decide), List.forall_mem_singleton.2 hother⟩
    obtain ⟨p, warning, hmem, hname, hrequired, -, hcase | ⟨-, message, rfl, hmention⟩, -⟩ :=
      propertiesOf_keepsDefault hfirst rfl hparts hdefault hnew
    · cases hcase.symm.trans hdata
    · exact ⟨p, message, hmem, hname, hrequired, hmention⟩

end ViewForge
