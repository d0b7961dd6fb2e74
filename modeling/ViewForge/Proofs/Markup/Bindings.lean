import ViewForge.Proofs.Markup.Coverage
import ViewForge.Proofs.Template.Actions

namespace ViewForge.Markup

open Text Erb Template

def EventBinding.written (b : EventBinding) : Text := b.event ++ "->" ++ b.handler

def EventBinding.qualified (identifier : Text) (b : EventBinding) : Text :=
  b.event ++ "->" ++ identifier ++ "#" ++ b.handler

/-- The bindings that the tag of an element is written with. A component binds its own events. -/
def Element.bindings (e : Element) : List EventBinding :=
  if (resolveTag e.tag).2.isSome then [] else e.attributes.filterMap Attribute.binding?

def Attribute.spelling? (isComponent : Bool) : Attribute → Option Text
  | .named name _ => some (spelling isComponent name)
  | .spread _ | .misplaced .. => none

section Spelling

theorem lowerFrom_ne_nil (inWord : Bool) {t : Text} (h : t ≠ []) : lowerFrom inWord t ≠ [] := by
  obtain ⟨c, t, rfl⟩ := List.exists_cons_of_ne_nil h
  rw [lowerFrom]
  split
  · exact List.cons_ne_nil _ _
  · split <;> exact List.cons_ne_nil _ _

theorem kebabCase_ne_nil {t : Text} (h : isMarkupName t = true) : Naming.kebabCase t ≠ [] := by
  cases t with
  | nil => cases h
  | cons c r =>
    rw [isMarkupName, Bool.and_eq_true] at h
    have hc : (c == '_') = false := beq_eq_false_iff_ne.2 fun heq ↦ by
      rw [heq] at h
      exact absurd h.1 (by decide)
    rw [Naming.kebabCase, Naming.snakeCase, Ne, List.map_eq_nil_iff]
    refine lowerFrom_ne_nil false ?_
    rw [List.flatMap_cons]
    split
    · simp [hc]
    · simp [hc]

theorem all_renamedAttributes_nonempty :
    (renamedAttributes.all fun e ↦ !e.2.toList.isEmpty) = true := by decide

theorem attributeName_ne_nil {name : Text} (h : isMarkupName name = true) :
    attributeName name ≠ [] := by
  have hname : name ≠ [] := fun heq ↦ by rw [heq] at h; cases h
  unfold attributeName
  split
  next old new hfind =>
    have hmem := List.mem_of_find?_eq_some hfind
    simpa using List.all_eq_true.1 all_renamedAttributes_nonempty _ hmem
  next =>
    split
    · exact lowerFrom_ne_nil false hname
    · split
      · exact hname
      · exact kebabCase_ne_nil h

theorem isAttributeName_spelling (isComponent : Bool) {name : Text} (h : isMarkupName name = true) :
    isAttributeName (spelling isComponent name) = true := by
  have hne : spelling isComponent name ≠ [] := by
    rw [spelling]
    split
    · exact fun heq ↦ by rw [heq] at h; cases h
    · exact attributeName_ne_nil h
  rw [isAttributeName, Bool.and_eq_true]
  exact ⟨by simpa using hne, all_isNameSymbol (all_isMarkupNamePart_spelling isComponent h)⟩

end Spelling

def Spelled (avoided t : Text) : Prop :=
  ∃ as, t = spacedAttributes as ∧ ∀ a ∈ as, Plain avoided a

namespace Spelled

variable {avoided t u : Text}

theorem nil : Spelled avoided [] := ⟨[], rfl, nofun⟩

theorem append (ht : Spelled avoided t) (hu : Spelled avoided u) : Spelled avoided (t ++ u) := by
  obtain ⟨as, rfl, has⟩ := ht
  obtain ⟨bs, rfl, hbs⟩ := hu
  exact ⟨as ++ bs, List.flatMap_append.symm, List.forall_mem_append.2 ⟨has, hbs⟩⟩

theorem singleton {a : TagAttribute} (h : Plain avoided a) : Spelled avoided (' ' :: a.render) :=
  ⟨[a], (List.append_nil _).symm, List.forall_mem_singleton.2 h⟩

theorem quoted {name v : Text} (hn : isAttributeName name = true) (hv : CleanValue '"' v)
    (hne : name ≠ avoided) : Spelled avoided (quotedAttribute name v) := by
  have h := singleton (a := { name, value := some v }) ⟨.valued hn (by decide) hv, rfl, hne⟩
  simpa [quotedAttribute, TagAttribute.render] using h

theorem directive {code : Text} (hc : CleanCode code) (havoided : avoided.head? ≠ some '<') :
    Spelled avoided (' ' :: outputDirective code) := by
  refine singleton (a := { name := outputDirective code })
    ⟨.directive (cleanDirective_output hc), rfl, ?_⟩
  rintro rfl
  exact havoided rfl

theorem written {html : Text} {t : AttributeText} (h : t.Written html)
    (hn : isAttributeName html = true) (hne : html ≠ avoided) (havoided : avoided.head? ≠ some '<')
    {r : RenderedAttributes} (hr : Spelled avoided r.parts) : Spelled avoided (r.add t).parts := by
  cases h with
  | quoted hv => exact hr.append (.quoted hn hv hne)
  | bare => exact hr.append (.singleton (a := { name := html }) ⟨.bare hn, rfl, hne⟩)
  | absent => exact hr.append .nil
  | directive hc => exact hr.append (.directive hc havoided)
  | failure => exact hr

end Spelled

section Attributes

variable {scope : Scope} {isComponent : Bool}

theorem not_isEventName_of_dropped {name : Text} (h : isAmong name droppedAttributes = true) :
    isEventName name = false := by
  obtain ⟨dropped, hmem, heq⟩ := List.any_eq_true.1 h
  have hall : ∀ s ∈ droppedAttributes, isEventName s.toList = false := by decide
  rw [← beq_iff_eq.1 heq]
  exact hall dropped hmem

theorem spelled_renderAttribute {avoided : Text} {r : RenderedAttributes} {a : Attribute}
    (havoided : avoided.head? ≠ some '<') (hr : Spelled avoided r.parts)
    (ha : a.Lexable scope isComponent) (hne : a.spelling? isComponent ≠ some avoided) :
    Spelled avoided (renderAttribute scope isComponent r a).parts := by
  cases a with
  | spread argument =>
    have hparts := hr.append (.directive (cleanCode_spread ha.2) havoided)
    rw [← spreadAttribute_eq] at hparts
    simpa only [renderAttribute, List.append_assoc] using hparts
  | misplaced kind name => exact ha.elim
  | named name value =>
    rw [renderAttribute]
    split
    · exact hr
    next hdropped =>
      obtain ⟨hn, hvalue⟩ := ha.resolve_left hdropped
      split
      · exact hr
      next hevent =>
        rw [if_neg hevent] at hvalue
        have hhtml := all_isMarkupNamePart_spelling isComponent hn
        exact .written (written_valueAttribute hhtml hvalue) (isAttributeName_spelling _ hn)
          (fun heq ↦ hne (congrArg some heq)) havoided hr

theorem actions_renderAttribute (r : RenderedAttributes) (a : Attribute) :
    (renderAttribute scope isComponent r a).actions =
      r.actions ++ if isComponent then [] else a.binding?.toList.map EventBinding.written := by
  cases a with
  | spread | misplaced => cases isComponent <;> exact (List.append_nil _).symm
  | named name value =>
    rw [renderAttribute, Attribute.binding?]
    split
    next hdropped =>
      rw [not_isEventName_of_dropped hdropped]
      cases isComponent <;> exact (List.append_nil _).symm
    next =>
      have hadd (t : AttributeText) : (r.add t).actions = r.actions := by cases t <;> rfl
      cases isComponent with
      | true => rw [Bool.not_true, Bool.and_false, if_neg Bool.false_ne_true, hadd]; simp
      | false =>
        cases hevent : isEventName name with
        | true => rfl
        | false => exact (hadd _).trans (List.append_nil _).symm

theorem actions_foldl_renderAttribute (scope : Scope) (isComponent : Bool)
    (r : RenderedAttributes) (attributes : List Attribute) :
    (attributes.foldl (renderAttribute scope isComponent) r).actions = r.actions ++
      if isComponent then [] else
        (attributes.filterMap Attribute.binding?).map EventBinding.written := by
  induction attributes generalizing r with
  | nil => cases isComponent <;> exact (List.append_nil _).symm
  | cons a attributes ih =>
    rw [List.foldl_cons, ih, actions_renderAttribute, List.append_assoc]
    cases isComponent with
    | true => rfl
    | false => cases hb : a.binding? <;> simp [hb]

theorem spelled_foldl_renderAttribute {avoided : Text} {r : RenderedAttributes}
    {attributes : List Attribute} (havoided : avoided.head? ≠ some '<')
    (hr : Spelled avoided r.parts) (h : ∀ a ∈ attributes, a.Lexable scope isComponent)
    (hne : ∀ a ∈ attributes, a.spelling? isComponent ≠ some avoided) :
    Spelled avoided (attributes.foldl (renderAttribute scope isComponent) r).parts := by
  induction attributes generalizing r with
  | nil => exact hr
  | cons a attributes ih =>
    rw [List.forall_mem_cons] at h hne
    exact ih (spelled_renderAttribute havoided hr h.1 hne.1) h.2 hne.2

/-- The attributes of a tag are written as plain ones, and then its actions. -/
theorem parts_renderAttributes {attributes : List Attribute}
    (h : ∀ a ∈ attributes, a.Lexable scope isComponent)
    (hne : ∀ a ∈ attributes, a.spelling? isComponent ≠ some "data-action") :
    ∃ as, (∀ a ∈ as, Plain "data-action" a) ∧
      (renderAttributes scope isComponent attributes).parts = spacedAttributes
        (as ++ actionAttributes (renderAttributes scope isComponent attributes).actions) := by
  obtain ⟨as, hparts, has⟩ := spelled_foldl_renderAttribute (r := {}) (by decide) .nil h hne
  refine ⟨as, has, ?_⟩
  rw [renderAttributes]
  split
  next hempty => rw [hparts, actionAttributes, if_pos hempty, List.append_nil]
  next hactions =>
    have hspaced (bs cs : List TagAttribute) :
        spacedAttributes (bs ++ cs) = spacedAttributes bs ++ spacedAttributes cs :=
      List.flatMap_append
    rw [hparts, actionAttributes, if_neg hactions, hspaced]
    simp [spacedAttributes, quotedAttribute, TagAttribute.render]

end Attributes

section Element

variable {scope : Scope} {e : Element}

theorem actions_renderAttributes (scope : Scope) (e : Element) :
    (renderAttributes scope (resolveTag e.tag).2.isSome e.attributes).actions =
      e.bindings.map EventBinding.written := by
  have hfold := actions_foldl_renderAttribute scope (resolveTag e.tag).2.isSome {} e.attributes
  have hkept : (renderAttributes scope (resolveTag e.tag).2.isSome e.attributes).actions =
      (e.attributes.foldl (renderAttribute scope (resolveTag e.tag).2.isSome) {}).actions := by
    rw [renderAttributes]
    split <;> rfl
  rw [hkept, hfold, Element.bindings]
  split <;> rfl

theorem spelled_marker {reference : Option Text}
    (h : ∀ name ∈ reference, isMarkupName name = true) :
    Spelled "data-action" (markerAttribute reference) := by
  cases reference with
  | none => exact .nil
  | some name =>
    have hname := isQuotable_of_all_isMarkupNamePart (all_of_isMarkupName (h name rfl))
    exact .quoted (by decide) (cleanValue_of_isQuotable hname) (by decide)

theorem text_token (scope : Scope) (e : Element) :
    (e.token scope).text = "<" ++ (resolveTag e.tag).1 ++ (markerAttribute (resolveTag e.tag).2 ++
      (renderAttributes scope (resolveTag e.tag).2.isSome e.attributes).parts ++
        slashIf e.selfClosing) ++ ">" := by
  rw [Element.token]
  cases e.selfClosing <;> simp [selfClosingToken, openToken, slashIf]

/-- The tag of an element carries the bindings of the element. -/
theorem carries_token (h : e.Lexable scope)
    (hne : ∀ a ∈ e.attributes, a.spelling? (resolveTag e.tag).2.isSome ≠ some "data-action") :
    Carries (e.bindings.map EventBinding.written) (e.token scope) := by
  have hnames := isMarkupName_resolveTag h.tag
  obtain ⟨ms, hmarker, hms⟩ := spelled_marker hnames.2
  obtain ⟨as, has, hparts⟩ := parts_renderAttributes h.attributes hne
  rw [actions_renderAttributes] at hparts
  let tag : Tag :=
    { name := (resolveTag e.tag).1
      attributes := ms ++ as ++ actionAttributes (e.bindings.map EventBinding.written)
      selfClosing := e.selfClosing }
  have hbears : Bears tag (e.bindings.map EventBinding.written) := by
    refine ⟨isTagName_of_isMarkupName hnames.1, rfl,
      ⟨ms ++ as, rfl, List.forall_mem_append.2 ⟨hms, has⟩⟩, fun w hw ↦ ⟨?_, ?_⟩⟩
    · obtain ⟨b, -, rfl⟩ := List.mem_map.1 hw
      simp [EventBinding.written]
    · rw [← actions_renderAttributes scope e] at hw
      exact (clean_renderAttributes h.attributes).actions w hw
  refine ⟨tag, hbears, ?_, ?_⟩
  · rw [Element.token]
    cases e.selfClosing <;> rfl
  · have htext : (e.token scope).text = tag.render := by
      rw [text_token, hmarker, hparts, Tag.render_eq rfl]
      simp [tag, spacedAttributes]
    rw [htext]
    exact hbears.openTagText

end Element

section Bindings

def isHandlerPart (c : Char) : Bool := !isBlank c && c != '#'

structure EventBinding.Legible (b : EventBinding) : Prop where
  event : b.event.all isMarkupNamePart = true
  handler : b.handler.all isHandlerPart = true

variable {b : EventBinding}

theorem isBlank_of_isMarkupNamePart {c : Char} (h : isMarkupNamePart c = true) :
    isBlank c = false := isBlank_of_isNameSymbol (isNameSymbol_of_isMarkupNamePart h)

theorem EventBinding.Legible.isWord (h : b.Legible) : IsWord b.written := by
  refine ⟨by simp [EventBinding.written], fun c hc ↦ ?_⟩
  rw [EventBinding.written, List.mem_append, List.mem_append] at hc
  rcases hc with (hc | hc) | hc
  · exact isBlank_of_isMarkupNamePart (List.all_eq_true.1 h.event c hc)
  · have harrow : (("->" : Text).all fun c ↦ !isBlank c) = true := by decide
    simpa using List.all_eq_true.1 harrow c hc
  · have hpart := List.all_eq_true.1 h.handler c hc
    rw [isHandlerPart, Bool.and_eq_true, Bool.not_eq_true'] at hpart
    exact hpart.1

theorem breakOn_arrow {a : Text} (r : Text) (h : '>' ∉ a) :
    breakOn "->" (a ++ "->" ++ r) = some (a, r) := by
  induction a with
  | nil => rfl
  | cons c a ih =>
    rw [List.mem_cons, not_or] at h
    have hstart : ("->" : Text).isPrefixOf (c :: (a ++ "->" ++ r)) = false := by
      rw [Bool.eq_false_iff, Ne, List.isPrefixOf_iff_prefix]
      rintro ⟨u, hu⟩
      cases a with
      | nil => exact absurd (List.cons.inj (List.cons.inj hu).2).1 (by decide)
      | cons d a =>
        exact h.2 (List.mem_cons.2 (.inl (List.cons.inj (List.cons.inj hu).2).1))
    rw [List.cons_append, List.cons_append, breakOn, if_neg (Bool.eq_false_iff.1 hstart), ih h.2]
    rfl

theorem EventBinding.Legible.qualify_eq (h : b.Legible) (identifier : Text) :
    qualify identifier b.written = b.qualified identifier := by
  have hgt : '>' ∉ b.event := fun hmem ↦
    absurd (List.all_eq_true.1 h.event _ hmem) (by decide)
  have hhash : '#' ∉ b.written := by
    rw [EventBinding.written, List.mem_append, List.mem_append]
    rintro ((hmem | hmem) | hmem)
    · exact absurd (List.all_eq_true.1 h.event _ hmem) (by decide)
    · exact absurd hmem (by decide)
    · exact absurd (List.all_eq_true.1 h.handler _ hmem) (by decide)
  have hcontains : ¬b.written.contains '#' = true := by simpa using hhash
  rw [qualify, EventBinding.written, breakOn_arrow _ hgt]
  exact if_neg hcontains

theorem Element.Lexable.event {scope : Scope} {e : Element} (h : e.Lexable scope)
    (hb : b ∈ e.bindings) : b.event.all isMarkupNamePart = true := by
  rw [Element.bindings] at hb
  split at hb
  · cases hb
  · obtain ⟨a, ha, hbinding⟩ := List.mem_filterMap.1 hb
    have hlexable := h.attributes a ha
    cases a with
    | spread | misplaced => cases hbinding
    | named name value =>
      rw [Attribute.binding?] at hbinding
      split at hbinding
      next hevent =>
        cases hbinding
        rcases hlexable with hdropped | ⟨hname, -⟩
        · rw [not_isEventName_of_dropped hdropped] at hevent
          cases hevent
        · exact all_isMarkupNamePart_eventOf hname
      next => cases hbinding

end Bindings

section Identifier

theorem all_toLowerRuns : (toLowerRuns.all fun run ↦ 97 ≤ run.first + run.shift) = true := by decide

theorem toNat_ofNat_cases (n : Nat) : (Char.ofNat n).toNat = n ∨ Char.ofNat n = '\x00' := by
  by_cases h : n.isValidChar
  · refine .inl ?_
    rw [Char.ofNat, dif_pos h]
    rfl
  · exact .inr (dif_neg h)

/-- No lower case falls on a mark: what changes becomes a letter from `a` on. -/
theorem lowerChar_cases (c : Char) :
    lowerChar c = c ∨ 97 ≤ (lowerChar c).toNat ∨ lowerChar c = '\x00' := by
  have hletter (n : Nat) (h : 97 ≤ n) :
      97 ≤ (Char.ofNat n).toNat ∨ Char.ofNat n = '\x00' :=
    (toNat_ofNat_cases n).imp_left (h.trans_eq ·.symm)
  rw [lowerChar]
  split
  next hupper =>
    simp only [isAsciiUpper, Bool.and_eq_true, decide_eq_true_eq, Char.le_def,
      UInt32.le_iff_toNat_le] at hupper
    exact .inr (hletter _ (Nat.add_le_add_right hupper.1 32))
  · split
    · exact .inl rfl
    · rw [shiftCase]
      cases hshift : toLowerRuns.findSome? (·.shift? c) with
      | none => exact .inl rfl
      | some s =>
        obtain ⟨run, hrun, hs⟩ := List.exists_of_findSome?_eq_some hshift
        have hle := of_decide_eq_true (List.all_eq_true.1 all_toLowerRuns run hrun)
        rw [CaseRun.shift?] at hs
        split at hs
        next hin =>
          cases hs
          simp only [Bool.and_eq_true, decide_eq_true_eq] at hin
          exact .inr (hletter _ (by omega))
        next => cases hs

theorem isQuotable_lowerChar {c : Char} (h : isQuotable [c] = true) :
    isQuotable [lowerChar c] = true := by
  rcases lowerChar_cases c with heq | hletter | heq
  · rwa [heq]
  · have hmark {d : Char} (hd : d.toNat < 97) : lowerChar c ≠ d := by
      rintro rfl
      omega
    simp [isQuotable, hmark (by decide : '"'.toNat < 97), hmark (by decide : '<'.toNat < 97)]
  · rw [heq]
    decide

theorem isQuotable_lowerFrom (inWord : Bool) {t : Text} (h : isQuotable t = true) :
    isQuotable (lowerFrom inWord t) = true := by
  induction t generalizing inWord with
  | nil => rfl
  | cons c t ih =>
    rw [← List.singleton_append, isQuotable, List.all_append, Bool.and_eq_true] at h
    rw [lowerFrom]
    have hrest := ih (isCased c || (inWord && isCaseIgnorable c)) h.2
    split
    · split <;> exact isQuotable_append (t := [_]) (by decide) hrest
    · split
      · exact isQuotable_append (t := ['i', Char.ofNat 0x307]) (by decide) hrest
      · exact isQuotable_append (isQuotable_lowerChar h.1) hrest

theorem isQuotable_kebabCase {t : Text} (h : isQuotable t = true) :
    isQuotable (Naming.kebabCase t) = true :=
  all_kebabCase (fun _ ↦ isQuotable_lowerFrom false) (by decide) (by decide) h

end Identifier

end ViewForge.Markup
