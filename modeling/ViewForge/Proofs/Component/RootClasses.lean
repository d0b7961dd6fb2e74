import ViewForge.Proofs.Component.NormalForm
import ViewForge.Proofs.Component.Styles
import ViewForge.Proofs.Erb.TagEdits
import ViewForge.Proofs.Markup.TagAttributes
import ViewForge.Template.Basic

namespace ViewForge.Markup

open Text

section Names

variable {scope : Scope} {isComponent : Bool} {name : Text}

def isClassName (name : Text) : Bool := name == "className" || name == "class"

theorem inTag?_of_isClassName (h : isClassName name = true) (value : Option Value) :
    (Attribute.named name value).inTag? scope isComponent = some (spelling isComponent name,
      valueAttribute scope isComponent name (spelling isComponent name) value) := by
  have hkept : (isAmong name droppedAttributes || isEventName name && !isComponent) = false := by
    rw [isClassName, Bool.or_eq_true, beq_iff_eq, beq_iff_eq] at h
    rcases h with rfl | rfl <;> cases isComponent <;> decide
  rw [Attribute.inTag?, hkept]
  rfl

/-- Neither capitals nor separators are in it, so every way to spell it leaves it as it is. -/
theorem attributeName_class : attributeName "class" = "class" := by
  have hfind : renamedAttributes.find? (·.1.toList == "class".toList) = none := by decide
  rw [attributeName, hfind]
  dsimp only
  split
  · rfl
  · split
    · rfl
    · rfl

theorem spelling_class (isComponent : Bool) : spelling isComponent "class" = "class" := by
  rw [spelling, attributeName_class, ite_self]

theorem attributeName_of_isClassName (h : isClassName name = true) :
    attributeName name = "class" := by
  rw [isClassName, Bool.or_eq_true, beq_iff_eq, beq_iff_eq] at h
  rcases h with rfl | rfl
  · rfl
  · exact attributeName_class

theorem not_boolean_of_isClassName (h : isClassName name = true) (isComponent : Bool) :
    (!isComponent && isAmong (spelling isComponent name) booleanAttributes) = false := by
  cases isComponent with
  | true => rfl
  | false =>
    rw [spelling, if_neg Bool.false_ne_true, attributeName_of_isClassName h]
    exact not_boolean_class false

end Names

end ViewForge.Markup

namespace ViewForge.Template

open Text Erb Markup

section Edit

variable {name : Text} {value : Option Text} {a : TagAttribute} {as bs : List TagAttribute}

theorem mem_assign_of_ne (h : a ∈ as) (hne : a.name ≠ name) : a ∈ Tag.assign name value as := by
  induction as with
  | nil => cases h
  | cons b as ih =>
    rw [Tag.assign]
    split
    next heq =>
      rcases List.mem_cons.1 h with rfl | h
      · exact absurd (beq_iff_eq.1 heq) hne
      · exact List.mem_cons_of_mem _ h
    next =>
      rcases List.mem_cons.1 h with rfl | h
      · exact List.mem_cons_self
      · exact List.mem_cons_of_mem _ (ih h)

/-- An attribute behind one of the same name is left alone. -/
theorem assign_append (h : ∃ b ∈ as, b.name = name) (bs : List TagAttribute) :
    Tag.assign name value (as ++ bs) = Tag.assign name value as ++ bs := by
  induction as with
  | nil =>
    obtain ⟨b, hb, -⟩ := h
    cases hb
  | cons c as ih =>
    rw [List.cons_append, Tag.assign, Tag.assign]
    split
    next => rfl
    next hne =>
      have hrest : ∃ b ∈ as, b.name = name := by
        obtain ⟨b, hb, hname⟩ := h
        rcases List.mem_cons.1 hb with rfl | hb
        · exact absurd (beq_iff_eq.2 hname) hne
        · exact ⟨b, hb, hname⟩
      rw [ih hrest, List.cons_append]

theorem render_infix_of_mem {tag : Tag} (hopening : tag.closing = false) (h : a ∈ tag.attributes) :
    ' ' :: a.render <:+: tag.render := by
  obtain ⟨before, after, hsplit⟩ := List.append_of_mem h
  refine ⟨"<" ++ tag.name ++ spacedAttributes before,
    spacedAttributes after ++ slashIf tag.selfClosing ++ ">", ?_⟩
  rw [Tag.render_eq hopening, hsplit]
  simp [spacedAttributes]

theorem openLabel_cons (k : Token) (ks : List Token) : ∃ ks', openLabel (k :: ks) = k :: ks' := by
  rw [openLabel.eq_def]
  dsimp only
  split
  · split
    · exact ⟨_, rfl⟩
    · exact ⟨_, rfl⟩
  · exact ⟨ks, rfl⟩

/-- The first tag of a template takes its classes from the component. -/
theorem tokenize_applyInteractiveClasses {tag : Tag} (hname : isTagName tag.name = true)
    (hopening : tag.closing = false) (h : ∀ a ∈ tag.attributes, CleanAttribute a) (r : Text) :
    ∃ ks, tokenize (applyInteractiveClasses (tag.render ++ r)) =
      ⟨.openTag, (tag.set "class" (some "<%= class_names %>")).render⟩ :: ks ∧
      parseTag (tag.set "class" (some "<%= class_names %>")).render =
        tag.set "class" (some "<%= class_names %>") := by
  let new := tag.set "class" (some "<%= class_names %>")
  have htag := openTagText_render hname hopening h
  have hnew : OpenTagText new new.render := by
    refine openTagText_render hname hopening fun a ha ↦ ?_
    rcases mem_assign ha with ha | rfl
    · exact h a ha
    · have hcode : CleanCode "class_names" := ⟨by decide, by decide⟩
      exact .valued (by decide) (by decide) (cleanValue_output hcode)
  have hedit : editFirstTag? (fun _ ↦ true) (·.set "class" (some "<%= class_names %>"))
      (tokenize (tag.render ++ r)) = some (⟨.openTag, new.render⟩ :: tokenize r) := by
    rw [htag.clean.tokenize_append r nofun, editFirstTag?, htag.parseTag_eq]
    rfl
  obtain ⟨ks, hks⟩ := openLabel_cons ⟨.openTag, new.render⟩ (tokenize r)
  refine ⟨tokenize (render ks), ?_, hnew.parseTag_eq⟩
  rw [applyInteractiveClasses, hedit]
  dsimp only
  rw [hks]
  exact hnew.clean.tokenize_append (render ks) nofun

end Edit

end ViewForge.Template

namespace ViewForge

open Text Erb Markup Template

def Definition.scope (d : Definition) : Scope := { props := (normalizeProps d.props).map (·.name) }

section Root

variable {d : Definition} {e : Element}

theorem eq_render_of_renderRoot {props : List Text} {root : Markup.Node} {r : Rendered}
    (h : renderRoot props root = .ok r) : r = root.render { props } := by
  rw [renderRoot] at h
  split at h
  · dsimp only at h
    split at h
    · exact (Except.ok.inj h).symm
    · cases h
  · cases h

theorem renderDefinition_of_warnings_nil {props : List Text} {root : Markup.Node}
    (h : (renderDefinition props (some root)).warnings = []) :
    (renderDefinition props (some root)).html = (root.render { props }).html ∧
      (root.render { props }).warnings = [] := by
  have hrendered := renderedAs_renderDefinition props (some root)
  generalize (renderDefinition props (some root)).html = html at *
  generalize (renderDefinition props (some root)).warnings = ws at *
  cases hrendered with
  | misfit => cases h
  | blank => exact absurd h (List.append_ne_nil_of_right_ne_nil _ (List.cons_ne_nil _ _))
  | whole hroot =>
    rw [← eq_render_of_renderRoot hroot]
    exact ⟨rfl, h⟩

/-- Without a warning the markup begins with the tag of the root, for which none is reported. -/
theorem exists_html_eq (withSlots : Bool)
    (hroot : d.roots.head? = some (.element e.tag e.attributes e.children e.selfClosing))
    (hlexable : e.Lexable d.scope) (h : (Component.ofDefinition withSlots d).warnings = []) :
    (∃ rest, (Component.ofDefinition withSlots d).html = (e.token d.scope).text ++ rest) ∧
      (renderAttributes d.scope (resolveTag e.tag).2.isSome e.attributes).warnings = [] := by
  have hwarnings : (renderDefinition d.scope.props d.roots.head?).warnings = [] :=
    (List.append_eq_nil_iff.1 (List.append_eq_nil_iff.1 h).1).2
  have hhtml : (Component.ofDefinition withSlots d).html =
      (renderDefinition d.scope.props d.roots.head?).html := rfl
  rw [hroot] at hwarnings hhtml
  obtain ⟨hrender, hquiet⟩ := renderDefinition_of_warnings_nil hwarnings
  have hattributes := warnings_render_element d.scope e hquiet
  obtain ⟨rest, hrest⟩ := html_render_element d.scope e
  have hleading := (clean_renderAttributes hlexable.attributes).leading
  rw [hattributes] at hleading
  refine ⟨⟨rest, ?_⟩, hattributes⟩
  rw [hhtml, hrender]
  rw [hleading] at hrest
  exact hrest

end Root

/-- Without a warning, an attribute for classes comes to some text. -/
theorem exists_part {scope : Scope} {e : Element} {before after : List Attribute} {name : Text}
    {value : Option Value} (hlexable : e.Lexable scope)
    (hquiet : (renderAttributes scope (resolveTag e.tag).2.isSome e.attributes).warnings = [])
    (hsplit : e.attributes = before ++ .named name value :: after) (h : isClassName name = true) :
    ∃ t, valueAttribute scope (resolveTag e.tag).2.isSome name
      (spelling (resolveTag e.tag).2.isSome name) value = .part t := by
  have htag : (Attribute.named name value).inTag? scope (resolveTag e.tag).2.isSome = some _ :=
    inTag?_of_isClassName h value
  have hmem : .named name value ∈ e.attributes := hsplit ▸ List.mem_append_cons_self
  have hwarnings : (renderAttributes scope (resolveTag e.tag).2.isSome e.attributes).warnings =
      (e.attributes.foldl (renderAttribute scope (resolveTag e.tag).2.isSome) {}).warnings := by
    rw [renderAttributes]
    split <;> rfl
  obtain ⟨-, hwritten, -⟩ := written_of_inTag? htag (hlexable.attributes _ hmem)
  generalize valueAttribute scope (resolveTag e.tag).2.isSome name
    (spelling (resolveTag e.tag).2.isSome name) value = text at *
  cases text with
  | part t => exact ⟨t, rfl⟩
  | failure reason =>
    have hreported := mem_warnings_foldl (r := {}) (.inr ⟨_, hmem, htag⟩)
    rw [← hwarnings, hquiet] at hreported
    cases hreported
  | misfit => cases hwritten

/-- What becomes of the classes of the root. Those of the first literal list are shared out among
the styles. If there is no warning, the tag of the root takes its classes from the component, and
every attribute for classes stays in it, but for the first one written as `class`. -/
theorem classes_accounted (withSlots : Bool) (d : Definition) (e : Element)
    (hroot : d.roots.head? = some (.element e.tag e.attributes e.children e.selfClosing))
    (hinteractive : (Component.ofDefinition withSlots d).isInteractive = true)
    (hlexable : e.Lexable d.scope) :
    let c := Component.ofDefinition withSlots d
    let isComponent := (resolveTag e.tag).2.isSome
    (∃ s, c.styles = some s ∧ Shape.SharesOut (words ((Shape.staticClass? e).getD [])) s) ∧
    (c.warnings = [] → ∃ k ks, tokenize (applyInteractiveClasses c.html) = k :: ks ∧
      isOpenTag k = true ∧
      (parseTag k.text).get? "class" =
        some { name := "class", value := some "<%= class_names %>" } ∧
      ∀ before name value after, e.attributes = before ++ .named name value :: after →
        isClassName name = true →
        (∃ t, valueAttribute d.scope isComponent name (spelling isComponent name) value = .part t ∧
          t <:+: k.text) ∨
        spelling isComponent name = "class" ∧
          ∀ x ∈ before, ¬x.WritesClass d.scope isComponent) := by
  intro c isComponent
  have hstyled := exists_styles withSlots d (e := e) (by rw [hroot]; rfl) hinteractive
  refine ⟨hstyled, fun hwarnings ↦ ?_⟩
  obtain ⟨⟨rest, hhtml⟩, hquiet⟩ := exists_html_eq withSlots hroot hlexable hwarnings
  obtain ⟨tag, htag, htext⟩ := exists_writtenTag hlexable
  rw [htext] at hhtml
  obtain ⟨ks, hks, hparse⟩ :=
    tokenize_applyInteractiveClasses htag.isTagName htag.opening htag.clean rest
  rw [← hhtml] at hks
  refine ⟨_, ks, hks, rfl, ?_, fun before name value after hsplit hname ↦ ?_⟩
  · rw [hparse]
    exact find?_assign tag.attributes
  obtain ⟨t, ht⟩ := exists_part hlexable hquiet hsplit hname
  rw [or_iff_not_imp_right]
  refine fun hkept ↦ ⟨t, ht, ?_⟩
  by_cases hne : t = []
  · rw [hne]
    exact List.nil_infix
  have hx : (Attribute.named name value).inTag? d.scope isComponent = some _ :=
    inTag?_of_isClassName hname value
  rw [ht] at hx
  obtain ⟨tag', as, a, bs, htag', htext', hattributes, haname, hatext, hclass⟩ :=
    exists_tag hlexable hsplit hx hne (not_boolean_of_isClassName hname isComponent)
  -- Both readings are of one text, so the tag that is edited is the one with the attribute in it.
  cases htag.render_injective htag' (htext.symm.trans htext')
  have hmem : a ∈ (tag.set "class" (some "<%= class_names %>")).attributes := by
    rw [Tag.set, hattributes]
    by_cases hfirst : ∃ b ∈ as, b.name = "class"
    · rw [assign_append hfirst]
      exact List.mem_append_right _ List.mem_cons_self
    · refine mem_assign_of_ne (List.mem_append_right _ List.mem_cons_self) fun heq ↦ hkept ?_
      exact ⟨haname.symm.trans heq, fun x hx hwrites ↦ hfirst (hclass x hx hwrites)⟩
  rw [hatext]
  exact render_infix_of_mem htag.opening hmem

def toneDefinition (attributes : List Attribute) : Definition where
  name := "Button"
  props := [{ name := "tone" }]
  roots := [.element "button" attributes [.text "Go"] false]

def toneValue : Value := .expression (some (.identifier "tone" [] "tone"))

def toneAttributes : List Attribute :=
  [.named "className" (some (.string "btn btn-primary px-2 sm:px-4")),
   .named "class" (some toneValue)]

theorem classes_accounted_toneButton :
    let c := Component.ofDefinition false (toneDefinition toneAttributes)
    (∃ s, c.styles = some s ∧ words s.base = ["btn", "px-2", "sm:px-4"] ∧
      ∃ g ∈ s.variants, g.1 = "primary" ∧ words g.2 = ["btn-primary"]) ∧
    ∃ k ks, tokenize (applyInteractiveClasses c.html) = k :: ks ∧
      " class=\"<%= @tone %>\"" <:+: k.text := by
  let e : Element := ⟨"button", toneAttributes, [.text "Go"], false⟩
  let d := toneDefinition toneAttributes
  have hlexable : e.Lexable d.scope := by
    refine ⟨by decide, List.forall_mem_cons.2 ⟨.inr ⟨by decide, ?_⟩,
      List.forall_mem_singleton.2 (.inr ⟨by decide, ?_⟩)⟩⟩
    · rintro _ ⟨⟩
      trivial
    · rintro _ ⟨⟩
      exact ⟨by decide, by decide⟩
  obtain ⟨⟨s, hs, hshared⟩, htag⟩ := classes_accounted false d e rfl (by decide +kernel) hlexable
  have hclasses : words ((Shape.staticClass? e).getD []) =
      ["btn", "btn-primary", "px-2", "sm:px-4"] := by decide
  rw [hclasses] at hshared
  obtain ⟨k, ks, htokens, -, -, hkept⟩ := htag (by decide +kernel)
  refine ⟨⟨s, hs, hshared.base, ?_⟩, k, ks, htokens, ?_⟩
  · obtain ⟨g, hg, hkey⟩ := hshared.variants.complete "btn-primary" (by decide) "primary"
      (by decide) (by decide)
    refine ⟨g, hg, hkey, ?_⟩
    rw [hshared.variants.found g hg, hkey]
    decide
  · rcases hkept [toneAttributes.head (by decide)] "class" (some toneValue) [] rfl rfl with
      ⟨t, ht, hin⟩ | ⟨-, hfirst⟩
    · have hvalue : valueAttribute d.scope false "class" "class" (some toneValue) =
          .part " class=\"<%= @tone %>\"" := rfl
      rw [spelling_class] at ht
      have htext := AttributeText.part.inj (ht.symm.trans hvalue)
      rwa [← htext]
    · exact absurd ⟨_, rfl, by decide⟩ (hfirst _ (List.mem_singleton_self _))

/-- The class of the root is neither in the styles nor in the template, and no warning is given. -/
theorem class_lost_toneButton :
    let dynamic := Component.ofDefinition false
      (toneDefinition [.named "className" (some toneValue)])
    let literal := Component.ofDefinition false
      (toneDefinition [.named "className"
        (some (.expression (some (.literal "\"btn\"" [] .string))))])
    let template : Text :=
      "<button data-controller=\"button\" class=\"<%= class_names %>\">" ++
        "<%= content || \"Go\" %></button>\n"
    dynamic.isInteractive = true ∧ dynamic.html = "<button class=\"<%= @tone %>\">Go</button>" ∧
      dynamic.styles = some {} ∧ dynamic.warnings = [] ∧
      ofComponent dynamic "Ui" false = template ∧
    literal.isInteractive = true ∧ literal.html = "<button class=\"btn\">Go</button>" ∧
      literal.styles = some {} ∧ literal.warnings = [] ∧ ofComponent literal "Ui" false = template ∧
    occursIn "tone" template = false ∧ occursIn "btn" template = false := by
  decide +kernel

end ViewForge
