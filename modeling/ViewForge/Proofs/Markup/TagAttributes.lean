import ViewForge.Proofs.Markup.Bindings
import ViewForge.Proofs.Markup.Scoping

namespace ViewForge.Markup

open Text Erb Template

/-- The name that an attribute has in its tag, and what it comes to there. Dropped attributes and
actions are not written by themselves. -/
def Attribute.inTag? (scope : Scope) (isComponent : Bool) :
    Attribute → Option (Text × AttributeText)
  | .named name value =>
    if isAmong name droppedAttributes || isEventName name && !isComponent then none
    else
      let html := spelling isComponent name
      some (html, valueAttribute scope isComponent name html value)
  | .spread _ | .misplaced .. => none

def Attribute.WritesClass (scope : Scope) (isComponent : Bool) (a : Attribute) : Prop :=
  ∃ t, a.inTag? scope isComponent = some (("class" : Text), .part t) ∧ t ≠ []

def Spaced (t : Text) (as : List TagAttribute) : Prop :=
  t = spacedAttributes as ∧ ∀ a ∈ as, CleanAttribute a

section Reading

variable {t u html : Text} {as bs : List TagAttribute}

theorem Spaced.append (h : Spaced t as) (h' : Spaced u bs) : Spaced (t ++ u) (as ++ bs) := by
  refine ⟨?_, List.forall_mem_append.2 ⟨h.2, h'.2⟩⟩
  rw [h.1, h'.1, spacedAttributes, spacedAttributes, spacedAttributes, List.flatMap_append]

theorem spaced_nil : Spaced [] [] := ⟨rfl, nofun⟩

theorem spaced_singleton {a : TagAttribute} (h : CleanAttribute a) :
    Spaced (' ' :: a.render) [a] := ⟨(List.append_nil _).symm, List.forall_mem_singleton.2 h⟩

theorem spaced_quoted {v : Text} (hn : isAttributeName html = true) (hv : CleanValue '"' v) :
    Spaced (quotedAttribute html v) [{ name := html, value := some v }] := by
  have h := spaced_singleton (.valued hn (by decide) hv)
  have hshape : quotedAttribute html v =
      ' ' :: TagAttribute.render { name := html, value := some v } := by
    simp [quotedAttribute, TagAttribute.render]
  rwa [hshape]

theorem spaced_directive {code : Text} (h : CleanCode code) :
    Spaced (' ' :: outputDirective code) [{ name := outputDirective code }] :=
  spaced_singleton (a := { name := outputDirective code }) (.directive (cleanDirective_output h))

theorem exists_spaced_of_written (h : AttributeText.Written html (.part t))
    (hn : isAttributeName html = true) : ∃ as, Spaced t as := by
  cases h with
  | quoted hv => exact ⟨_, spaced_quoted hn hv⟩
  | bare => exact ⟨_, spaced_singleton (a := { name := html }) (.bare hn)⟩
  | absent => exact ⟨_, spaced_nil⟩
  | directive hc => exact ⟨_, spaced_directive hc⟩

end Reading

section Attributes

variable {scope : Scope} {isComponent : Bool} {name html t : Text} {value : Option Value}

theorem isPrefix_quotedAttribute (html v : Text) : ' ' :: html <+: quotedAttribute html v :=
  ⟨"=\"" ++ v ++ "\"", by simp [quotedAttribute]⟩

theorem isPrefix_expressionAttribute {e : Expr}
    (hboolean : (!isComponent && isAmong html booleanAttributes) = false)
    (h : expressionAttribute scope isComponent name html e = .part t) :
    t = [] ∨ ' ' :: html <+: t := by
  have hcomputed {code : Text}
      (h : (if !isComponent && isAmong html booleanAttributes then
          AttributeText.part (" <%= \"" ++ html ++ "\" if " ++ code ++ " %>")
        else .part (quotedAttribute html (outputDirective code))) = .part t) :
      t = [] ∨ ' ' :: html <+: t := by
    rw [hboolean] at h
    cases h
    exact .inr (isPrefix_quotedAttribute html _)
  cases e with
  | literal source refs kind =>
    cases kind with
    | boolean b =>
      cases b with
      | true =>
        cases h
        exact .inr (List.prefix_refl _)
      | false =>
        cases h
        exact .inl rfl
    | null | undefined =>
      cases h
      exact .inl rfl
    | string | number =>
      cases h
      exact .inr (isPrefix_quotedAttribute html _)
    | template | regex => exact hcomputed h
  | markup | function | misplaced => cases h
  | other =>
    rw [expressionAttribute] at h
    split at h
    · cases h
    · exact hcomputed h
  | identifier | member | conditional | logical | call => exact hcomputed h

/-- Only a boolean attribute may come without its name in front. -/
theorem isPrefix_valueAttribute
    (hboolean : (!isComponent && isAmong html booleanAttributes) = false)
    (h : valueAttribute scope isComponent name html value = .part t) :
    t = [] ∨ ' ' :: html <+: t := by
  cases value with
  | none =>
    cases h
    exact .inr (List.prefix_refl _)
  | some v =>
    cases v with
    | string v =>
      cases h
      exact .inr (isPrefix_quotedAttribute html _)
    | unsupported | misplaced => cases h
    | expression e =>
      cases e with
      | none =>
        cases h
        exact .inl rfl
      | some e => exact isPrefix_expressionAttribute hboolean h

theorem exists_spaced_valueAttribute
    (hboolean : (!isComponent && isAmong html booleanAttributes) = false)
    (hn : isAttributeName html = true)
    (hwritten : AttributeText.Written html (valueAttribute scope isComponent name html value))
    (h : valueAttribute scope isComponent name html value = .part t) (hne : t ≠ []) :
    ∃ a, a.name = html ∧ Spaced t [a] := by
  have hprefix := (isPrefix_valueAttribute hboolean h).resolve_left hne
  rw [h] at hwritten
  cases hwritten with
  | quoted hv => exact ⟨_, rfl, spaced_quoted hn hv⟩
  | bare => exact ⟨_, rfl, spaced_singleton (a := { name := html }) (.bare hn)⟩
  | absent => exact absurd rfl hne
  | directive hc =>
    rw [isAttributeName, Bool.and_eq_true, Bool.not_eq_true', List.isEmpty_eq_false_iff] at hn
    obtain ⟨c, r, rfl⟩ := List.exists_cons_of_ne_nil hn.1
    have hmark : c = '<' := (List.cons_prefix_cons.1 (List.cons_prefix_cons.1 hprefix).2).1
    rw [hmark] at hn
    exact absurd (List.all_eq_true.1 hn.2 '<' List.mem_cons_self) (by decide)

theorem not_boolean_class (isComponent : Bool) :
    (!isComponent && isAmong "class" booleanAttributes) = false := by
  have hclass : isAmong "class" booleanAttributes = false := by decide
  rw [hclass, Bool.and_false]

theorem renderAttribute_of_inTag? {a : Attribute} {text : AttributeText}
    (h : a.inTag? scope isComponent = some (html, text)) (r : RenderedAttributes) :
    renderAttribute scope isComponent r a = r.add text := by
  cases a with
  | spread | misplaced => cases h
  | named name value =>
    obtain ⟨hkept, heq⟩ := Option.ite_none_left_eq_some.1 h
    rw [Bool.or_eq_true, not_or] at hkept
    cases heq
    rw [renderAttribute, if_neg hkept.1, if_neg hkept.2]
    rfl

theorem renderAttribute_of_inTag?_none {value : Option Value}
    (h : (Attribute.named name value).inTag? scope isComponent = none) (r : RenderedAttributes) :
    ∃ actions misfits,
      renderAttribute scope isComponent r (.named name value) = { r with actions, misfits } := by
  rw [Attribute.inTag?, ite_eq_left_iff] at h
  have hdropped := Decidable.not_not.1 fun hkept ↦ absurd (h hkept) nofun
  rw [renderAttribute]
  split
  · exact ⟨r.actions, r.misfits, rfl⟩
  next hne =>
    rw [Bool.or_eq_true] at hdropped
    rw [if_pos (hdropped.resolve_left hne)]
    exact ⟨_, _, rfl⟩

theorem written_of_inTag? {a : Attribute} {text : AttributeText}
    (h : a.inTag? scope isComponent = some (html, text)) (hlexable : a.Lexable scope isComponent) :
    isAttributeName html = true ∧ text.Written html ∧
      ∃ name value, text = valueAttribute scope isComponent name html value := by
  cases a with
  | spread | misplaced => cases h
  | named name value =>
    obtain ⟨hkept, heq⟩ := Option.ite_none_left_eq_some.1 h
    rw [Bool.or_eq_true, not_or] at hkept
    cases heq
    obtain ⟨hn, hvalue⟩ := hlexable.resolve_left hkept.1
    rw [if_neg hkept.2] at hvalue
    exact ⟨isAttributeName_spelling isComponent hn,
      written_valueAttribute (all_isMarkupNamePart_spelling isComponent hn) hvalue,
      name, value, rfl⟩

theorem exists_spaced_attribute {a : Attribute} (h : a.Lexable scope isComponent) :
    ∃ as, Spaced (partsText scope (a.parts isComponent)) as ∧
      (a.WritesClass scope isComponent → ∃ b ∈ as, b.name = "class") := by
  have hparts : (renderAttribute scope isComponent {} a).parts =
      partsText scope (a.parts isComponent) := parts_renderAttribute {} a
  rw [← hparts]
  cases htag : a.inTag? scope isComponent with
  | none =>
    cases a with
    | spread argument =>
      have hspread := spaced_directive (cleanCode_spread h.2)
      rw [← spreadAttribute_eq] at hspread
      exact ⟨_, hspread, fun ⟨_, ht, _⟩ ↦ nomatch htag.symm.trans ht⟩
    | misplaced kind name => exact h.elim
    | named name value =>
      refine ⟨[], ?_, fun ⟨_, ht, _⟩ ↦ nomatch htag.symm.trans ht⟩
      obtain ⟨actions, misfits, hrender⟩ := renderAttribute_of_inTag?_none htag {}
      rw [hrender]
      exact spaced_nil
  | some p =>
    obtain ⟨html, text⟩ := p
    obtain ⟨hn, hwritten, name, value, hvalue⟩ := written_of_inTag? htag h
    rw [renderAttribute_of_inTag? htag]
    cases text with
    | failure | misfit => exact ⟨[], spaced_nil, fun ⟨_, ht, _⟩ ↦ nomatch htag.symm.trans ht⟩
    | part t =>
      by_cases hclass : html = "class" ∧ t ≠ []
      · obtain ⟨rfl, hne⟩ := hclass
        rw [hvalue] at hwritten
        obtain ⟨b, hb, hread⟩ := exists_spaced_valueAttribute (not_boolean_class isComponent) hn
          hwritten hvalue.symm hne
        exact ⟨[b], hread, fun _ ↦ ⟨b, List.mem_singleton_self b, hb⟩⟩
      · obtain ⟨as, has⟩ := exists_spaced_of_written hwritten hn
        refine ⟨as, has, fun ⟨u, hu, hne⟩ ↦ absurd ?_ hclass⟩
        cases htag.symm.trans hu
        exact ⟨rfl, hne⟩

theorem exists_spaced_attributes {attributes : List Attribute}
    (h : ∀ a ∈ attributes, a.Lexable scope isComponent) :
    ∃ as, Spaced (partsText scope (attributes.flatMap (Attribute.parts isComponent))) as ∧
      ∀ a ∈ attributes, a.WritesClass scope isComponent → ∃ b ∈ as, b.name = "class" := by
  induction attributes with
  | nil => exact ⟨[], spaced_nil, nofun⟩
  | cons a attributes ih =>
    rw [List.forall_mem_cons] at h
    obtain ⟨as, has, hclass⟩ := exists_spaced_attribute h.1
    obtain ⟨bs, hbs, hclasses⟩ := ih h.2
    rw [List.flatMap_cons, partsText_append]
    refine ⟨as ++ bs, has.append hbs, List.forall_mem_cons.2 ⟨fun ha ↦ ?_, fun b hb hwrites ↦ ?_⟩⟩
    · obtain ⟨b, hb, hname⟩ := hclass ha
      exact ⟨b, List.mem_append_left _ hb, hname⟩
    · obtain ⟨c, hc, hname⟩ := hclasses b hb hwrites
      exact ⟨c, List.mem_append_right _ hc, hname⟩

theorem mem_warnings_foldl {r : RenderedAttributes} {reason : Text} {attributes : List Attribute}
    (h : reason ∈ r.warnings ∨ ∃ a ∈ attributes,
      a.inTag? scope isComponent = some (html, .failure reason)) :
    reason ∈ (attributes.foldl (renderAttribute scope isComponent) r).warnings := by
  induction attributes generalizing r with
  | nil => exact h.resolve_right nofun
  | cons a attributes ih =>
    refine ih ?_
    rcases h with h | ⟨b, hb, hfailure⟩
    · refine .inl ?_
      cases htag : a.inTag? scope isComponent with
      | some p =>
        rw [renderAttribute_of_inTag? htag]
        cases p.2 with
        | part | misfit => exact h
        | failure => exact List.mem_append_left _ h
      | none =>
        cases a with
        | spread | misplaced => exact h
        | named name value =>
          obtain ⟨actions, misfits, hrender⟩ := renderAttribute_of_inTag?_none htag r
          rw [hrender]
          exact h
    · rcases List.mem_cons.1 hb with rfl | hb
      · rw [renderAttribute_of_inTag? hfailure]
        exact .inl (List.mem_append_right _ (List.mem_singleton_self _))
      · exact .inr ⟨b, hb, hfailure⟩

/-- All actions of a tag are written last, in one attribute. -/
theorem exists_parts_renderAttributes {attributes : List Attribute}
    (h : ∀ a ∈ attributes, a.Lexable scope isComponent) :
    ∃ u as, Spaced u as ∧ (renderAttributes scope isComponent attributes).parts =
      partsText scope (attributes.flatMap (Attribute.parts isComponent)) ++ u := by
  have hparts : (attributes.foldl (renderAttribute scope isComponent) {}).parts =
      partsText scope (attributes.flatMap (Attribute.parts isComponent)) :=
    parts_foldl_renderAttribute {} attributes
  have hactions := (clean_renderAttributes h).actions
  rw [renderAttributes] at hactions ⊢
  split at hactions
  next hempty =>
    rw [if_pos hempty, hparts]
    exact ⟨[], [], spaced_nil, (List.append_nil _).symm⟩
  next hempty =>
    rw [if_neg hempty]
    have hvalue := cleanValue_of_isQuotable (isQuotable_join " " (by decide) hactions)
    have hname : isAttributeName "data-action" = true := by decide
    exact ⟨_, _, spaced_quoted hname hvalue, congrArg (· ++ _) hparts⟩

end Attributes

structure IsWrittenTag (tag : Tag) : Prop where
  isTagName : isTagName tag.name = true
  opening : tag.closing = false
  clean : ∀ a ∈ tag.attributes, CleanAttribute a

theorem IsWrittenTag.render_injective {tag tag' : Tag} (h : IsWrittenTag tag)
    (h' : IsWrittenTag tag') (heq : tag.render = tag'.render) : tag = tag' := by
  have hread := (openTagText_render h.isTagName h.opening h.clean).parseTag_eq
  rw [heq, (openTagText_render h'.isTagName h'.opening h'.clean).parseTag_eq] at hread
  exact hread.symm

section Element

variable {scope : Scope} {e : Element} {html t : Text}

theorem exists_spaced_marker (h : (splitOn '.' e.tag).all isMarkupName = true) :
    ∃ as, Spaced (markerAttribute (resolveTag e.tag).2) as := by
  have hnames := (isMarkupName_resolveTag h).2
  cases hreference : (resolveTag e.tag).2 with
  | none => exact ⟨[], spaced_nil⟩
  | some name =>
    have hname := isQuotable_of_all_isMarkupNamePart (all_of_isMarkupName (hnames name hreference))
    exact ⟨_, spaced_quoted (by decide) (cleanValue_of_isQuotable hname)⟩

theorem exists_tag_of_spaced {as : List TagAttribute} (h : e.Lexable scope)
    (has : Spaced (markerAttribute (resolveTag e.tag).2 ++
      (renderAttributes scope (resolveTag e.tag).2.isSome e.attributes).parts) as) :
    ∃ tag, IsWrittenTag tag ∧ tag.attributes = as ∧ (e.token scope).text = tag.render := by
  let tag : Tag :=
    { name := (resolveTag e.tag).1, attributes := as, selfClosing := e.selfClosing }
  refine ⟨tag, ⟨isTagName_of_isMarkupName (isMarkupName_resolveTag h.tag).1, rfl, has.2⟩, rfl, ?_⟩
  rw [text_token, has.1, Tag.render_eq rfl]

theorem exists_writtenTag (h : e.Lexable scope) :
    ∃ tag, IsWrittenTag tag ∧ (e.token scope).text = tag.render := by
  obtain ⟨ms, hms⟩ := exists_spaced_marker h.tag
  obtain ⟨as, has, -⟩ := exists_spaced_attributes h.attributes
  obtain ⟨u, bs, hbs, hparts⟩ := exists_parts_renderAttributes h.attributes
  have hspaced := hms.append (has.append hbs)
  rw [← hparts] at hspaced
  obtain ⟨tag, htag, -, htext⟩ := exists_tag_of_spaced h hspaced
  exact ⟨tag, htag, htext⟩

/-- The tag of an element has the attribute at its place, behind what comes before it. -/
theorem exists_tag {before after : List Attribute} {x : Attribute} (h : e.Lexable scope)
    (hsplit : e.attributes = before ++ x :: after)
    (hx : x.inTag? scope (resolveTag e.tag).2.isSome = some (html, .part t)) (hne : t ≠ [])
    (hboolean : (!(resolveTag e.tag).2.isSome && isAmong html booleanAttributes) = false) :
    ∃ (tag : Tag) (as : List TagAttribute) (a : TagAttribute) (bs : List TagAttribute),
      IsWrittenTag tag ∧ (e.token scope).text = tag.render ∧ tag.attributes = as ++ a :: bs ∧
      a.name = html ∧ t = ' ' :: a.render ∧
      ∀ y ∈ before, y.WritesClass scope (resolveTag e.tag).2.isSome →
        ∃ b ∈ as, b.name = "class" := by
  have hlexable := h.attributes
  rw [hsplit, List.forall_mem_append, List.forall_mem_cons] at hlexable
  obtain ⟨hbefore, hxlexable, hafter⟩ := hlexable
  obtain ⟨ms, hms⟩ := exists_spaced_marker h.tag
  obtain ⟨as, has, hclass⟩ := exists_spaced_attributes hbefore
  obtain ⟨bs, hbs, -⟩ := exists_spaced_attributes hafter
  obtain ⟨u, cs, hcs, hparts⟩ := exists_parts_renderAttributes h.attributes
  obtain ⟨hn, hwritten, name, value, hvalue⟩ := written_of_inTag? hx hxlexable
  rw [hvalue] at hwritten
  obtain ⟨a, ha, hread⟩ := exists_spaced_valueAttribute hboolean hn hwritten hvalue.symm hne
  have hxparts : partsText scope (x.parts (resolveTag e.tag).2.isSome) = t := by
    have hrender := congrArg (·.parts) (renderAttribute_of_inTag? hx {})
    exact (parts_renderAttribute {} x).symm.trans hrender
  rw [hsplit, List.flatMap_append, List.flatMap_cons, partsText_append, partsText_append,
    hxparts] at hparts
  have hspaced := hms.append ((has.append (hread.append hbs)).append hcs)
  rw [← hparts, ← hsplit] at hspaced
  obtain ⟨tag, htag, hattributes, htext⟩ := exists_tag_of_spaced h hspaced
  refine ⟨tag, ms ++ as, a, bs ++ cs, htag, htext, ?_, ha, ?_, fun y hy hwrites ↦ ?_⟩
  · rw [hattributes]
    simp
  · rw [hread.1]
    exact List.append_nil _
  · obtain ⟨b, hb, hname⟩ := hclass y hy hwrites
    exact ⟨b, List.mem_append_right _ hb, hname⟩

end Element

/-- The text of the root's tag, and what stands behind it. -/
theorem html_render_element (scope : Scope) (e : Element) :
    ∃ rest, ((Node.element e.tag e.attributes e.children e.selfClosing).render scope).html =
      (renderAttributes scope (resolveTag e.tag).2.isSome e.attributes).leading ++
        ((e.token scope).text ++ rest) := by
  let r := renderAttributes scope (resolveTag e.tag).2.isSome e.attributes
  let opening := r.leading ++ "<" ++ (resolveTag e.tag).1 ++ markerAttribute (resolveTag e.tag).2 ++
    r.parts
  rw [Node.render, text_token]
  cases e.selfClosing with
  | true =>
    have hhtml : (renderElement scope e.tag e.attributes {} true).html = opening ++ " />" := rfl
    refine ⟨[], hhtml.trans ?_⟩
    simp [opening, r, slashIf]
  | false =>
    have hhtml : (renderElement scope e.tag e.attributes (renderNodes scope e.children)
          false).html =
        opening ++ ">" ++ (renderNodes scope e.children).html ++
          ("</" ++ (resolveTag e.tag).1 ++ ">") := rfl
    refine ⟨(renderNodes scope e.children).html ++ ("</" ++ (resolveTag e.tag).1 ++ ">"),
      hhtml.trans ?_⟩
    simp [opening, r, slashIf]

theorem warnings_render_element (scope : Scope) (e : Element)
    (h : ((Node.element e.tag e.attributes e.children e.selfClosing).render scope).warnings = []) :
    (renderAttributes scope (resolveTag e.tag).2.isSome e.attributes).warnings = [] := by
  rw [Node.render] at h
  cases hslash : e.selfClosing with
  | true =>
    rw [hslash] at h
    exact (List.append_eq_nil_iff.1 h).1
  | false =>
    rw [hslash] at h
    exact (List.append_eq_nil_iff.1 h).1

end ViewForge.Markup
