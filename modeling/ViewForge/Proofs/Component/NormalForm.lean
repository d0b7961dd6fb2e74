import ViewForge.Proofs.Project.Logging
import ViewForge.Proofs.Template.Wiring

namespace ViewForge

open Text Markup

section First

variable {α κ : Type} [BEq κ]

/-- The first element of each key, in the order in which the keys come up. -/
structure FirstOf (key : α → κ) (xs ys : List α) : Prop where
  first : ∀ y ∈ ys, xs.find? (key · == key y) = some y
  order : ys.Pairwise fun y z ↦ xs.findIdx (key · == key y) < xs.findIdx (key · == key z)
  covers : ∀ x ∈ xs, ∃ y ∈ ys, key y = key x

/-- Adds an element unless there is one of its key. -/
def keepFirst (key : α → κ) (seen : List α) (x : α) : List α :=
  if seen.any (key · == key x) then seen else seen ++ [x]

variable [LawfulBEq κ] {key : α → κ} {xs ys : List α}

theorem FirstOf.findIdx_lt (h : FirstOf key xs ys) {y : α} (hy : y ∈ ys) :
    xs.findIdx (key · == key y) < xs.length := by
  rw [List.findIdx_lt_length]
  exact ⟨y, List.mem_of_find?_eq_some (h.first y hy), beq_self_eq_true (key y)⟩

/-- What comes behind changes neither the first element of a key nor where it stands. -/
theorem FirstOf.findIdx_append (h : FirstOf key xs ys) {y : α} (hy : y ∈ ys) (zs : List α) :
    (xs ++ zs).findIdx (key · == key y) = xs.findIdx (key · == key y) := by
  rw [List.findIdx_append, if_pos (h.findIdx_lt hy)]

theorem FirstOf.keepFirst (h : FirstOf key xs ys) (x : α) :
    FirstOf key (xs ++ [x]) (keepFirst key ys x) := by
  have hfirst : ∀ y ∈ ys, (xs ++ [x]).find? (key · == key y) = some y := by
    intro y hy
    rw [List.find?_append, h.first y hy]
    rfl
  have horder : ys.Pairwise fun y z ↦
      (xs ++ [x]).findIdx (key · == key y) < (xs ++ [x]).findIdx (key · == key z) := by
    refine h.order.imp_of_mem fun hy hz hlt ↦ ?_
    rwa [h.findIdx_append hy, h.findIdx_append hz]
  rw [ViewForge.keepFirst]
  split
  next hseen =>
    obtain ⟨y, hy, heq⟩ := List.any_eq_true.1 hseen
    refine ⟨hfirst, horder, ?_⟩
    rw [List.forall_mem_append, List.forall_mem_singleton]
    exact ⟨h.covers, y, hy, beq_iff_eq.1 heq⟩
  next hnew =>
    have hnone : xs.find? (key · == key x) = none := by
      rw [List.find?_eq_none]
      intro z hz heq
      obtain ⟨y, hy, hkey⟩ := h.covers z hz
      exact hnew (List.any_eq_true.2 ⟨y, hy, by rw [hkey]; exact heq⟩)
    have hlast : (xs ++ [x]).findIdx (key · == key x) = xs.length := by
      have hout : ¬xs.findIdx (key · == key x) < xs.length := by
        rw [List.findIdx_lt_length]
        rintro ⟨z, hz, heq⟩
        exact List.find?_eq_none.1 hnone z hz heq
      rw [List.findIdx_append, if_neg hout]
      simp [List.findIdx_cons]
    refine ⟨?_, ?_, ?_⟩
    · rw [List.forall_mem_append, List.forall_mem_singleton]
      refine ⟨hfirst, ?_⟩
      rw [List.find?_append, hnone]
      simp
    · rw [List.pairwise_append]
      refine ⟨horder, List.pairwise_singleton _ _, fun y hy z hz ↦ ?_⟩
      cases List.mem_singleton.1 hz
      rw [h.findIdx_append hy, hlast]
      exact h.findIdx_lt hy
    · rw [List.forall_mem_append, List.forall_mem_singleton]
      refine ⟨fun z hz ↦ ?_, x, by simp, rfl⟩
      obtain ⟨y, hy, hkey⟩ := h.covers z hz
      exact ⟨y, List.mem_append_left _ hy, hkey⟩

theorem FirstOf.foldl (h : FirstOf key xs ys) (zs : List α) :
    FirstOf key (xs ++ zs) (zs.foldl (ViewForge.keepFirst key) ys) := by
  induction zs generalizing xs ys with
  | nil =>
    rw [List.append_nil]
    exact h
  | cons z zs ih =>
    rw [List.append_cons]
    exact ih (h.keepFirst z)

theorem firstOf_foldl (xs : List α) : FirstOf key xs (xs.foldl (keepFirst key) []) :=
  FirstOf.foldl ⟨List.forall_mem_nil _, .nil, List.forall_mem_nil _⟩ xs

omit [LawfulBEq κ] in
theorem FirstOf.nodup (h : FirstOf key xs ys) : (ys.map key).Nodup := by
  rw [List.Nodup, List.pairwise_map]
  refine h.order.imp fun hlt heq ↦ ?_
  rw [heq] at hlt
  exact Nat.lt_irrefl _ hlt

theorem normalizeEvents_eq (events : List EventBinding) :
    normalizeEvents events = events.foldl (keepFirst fun e ↦ (e.event, e.handler)) [] := rfl

theorem distinct_eq (names : List Text) : distinct names = names.foldl (keepFirst id) [] := by
  have hstep : (fun (seen : List Text) n ↦ if seen.contains n then seen else seen ++ [n]) =
      keepFirst id := by
    funext seen n
    have hseen : seen.contains n = seen.any (id · == id n) := by
      rw [Bool.eq_iff_iff]
      simp
    rw [keepFirst, hseen]
  rw [distinct, hstep]

end First

end ViewForge

namespace ViewForge.Markup

open Text

section Order

/-- Some texts stand in another one after the other. -/
inductive InOrder : List Text → Text → Prop
  | nil (t : Text) : InOrder [] t
  | cons (before : Text) {p t : Text} {ps : List Text} :
      InOrder ps t → InOrder (p :: ps) (before ++ p ++ t)

theorem InOrder.prepend {ps : List Text} {t : Text} (h : InOrder ps t) (before : Text) :
    InOrder ps (before ++ t) := by
  cases h with
  | nil t => exact .nil _
  | cons between h =>
    rw [← List.append_assoc, ← List.append_assoc]
    exact .cons (before ++ between) h

theorem InOrder.append {ps qs : List Text} {t u : Text} (h : InOrder ps t) (h' : InOrder qs u) :
    InOrder (ps ++ qs) (t ++ u) := by
  induction h with
  | nil t => exact h'.prepend t
  | cons before _ ih =>
    rw [List.append_assoc]
    exact .cons before ih

end Order

/-- A tag that is marked as the place of a component. -/
structure Mark where
  tag : Text
  name : Text

def Mark.opening (m : Mark) : Text := "<" ++ m.tag ++ quotedAttribute componentMarker m.name

def Element.mark? (e : Element) : Option Mark :=
  (resolveTag e.tag).2.map fun name ↦ ⟨(resolveTag e.tag).1, name⟩

def marks (fs : List (Element × Fate)) : List Mark := (shown fs).filterMap Element.mark?

theorem marks_append (fs gs : List (Element × Fate)) : marks (fs ++ gs) = marks fs ++ marks gs := by
  rw [marks, shown_append, List.filterMap_append]
  rfl

theorem marks_allTo {fate : Fate} (h : fate ≠ .tag) (es : List Element) :
    marks (allTo fate es) = [] := by
  rw [marks, shown_allTo h]
  rfl

theorem marks_attributes (isComponent : Bool) (as : List Attribute) :
    marks (as.flatMap (·.fates isComponent)) = [] := by
  rw [marks, shown_attributes]
  rfl

theorem marks_cons_tag (e : Element) (fs : List (Element × Fate)) :
    marks ((e, .tag) :: fs) = e.mark?.toList ++ marks fs := by
  change (e :: shown fs).filterMap Element.mark? = _
  rw [List.filterMap_cons]
  cases e.mark? <;> rfl

/-- What is rendered refers to the components of some marks and holds these in order. -/
structure Rendered.Marked (r : Rendered) (ms : List Mark) : Prop where
  references : r.references = ms.map (·.name)
  html : InOrder (ms.map Mark.opening) r.html

namespace Rendered.Marked

variable {r r' : Rendered} {ms ms' : List Mark}

theorem of_plain (h : r.references = []) : Marked r [] := ⟨h, .nil _⟩

theorem append (h : Marked r ms) (h' : Marked r' ms') : Marked (r ++ r') (ms ++ ms') where
  references := by
    rw [List.map_append, ← h.references, ← h'.references]
    rfl
  html := by
    rw [List.map_append]
    exact h.html.append h'.html

theorem wrap (h : Marked r ms) (before after : Text) : Marked (r.wrap before after) ms where
  references := h.references
  html := by
    have hafter := (h.html.prepend before).append (.nil after)
    rwa [List.append_nil] at hafter

theorem branch {e : Expr} {scope : Scope} (h : Marked (e.render scope) (marks e.fates)) :
    Marked (if e.isEmptyBranch then {} else e.render scope) (marks e.fates) := by
  split
  next hempty =>
    rw [fates_of_isEmptyBranch hempty]
    exact of_plain rfl
  next => exact h

theorem conditional (h : Marked r ms) (h' : Marked r' ms') (test : Text) :
    Marked (renderConditional test r r') (ms ++ ms') := by
  rw [← List.append_nil (ms ++ ms')]
  exact ((h.wrap _ _).append (h'.wrap _ _)).append (of_plain rfl)

theorem congr (h : Marked r ms) (hreferences : r'.references = r.references)
    (hhtml : r'.html = r.html) : Marked r' ms := by
  refine ⟨hreferences.trans h.references, ?_⟩
  rw [hhtml]
  exact h.html

/-- A tag that has been opened is closed at once, or behind its children. -/
theorem close {head children : Rendered} {opening : Text} {selfClosing : Bool}
    (h : Marked { html := opening, references := head.references } ms) (hhead : head.html = [])
    (hchildren : if selfClosing then ms' = [] else Marked children ms') (closing : Text) :
    Marked (if selfClosing then head ++ ({ html := opening ++ " />" } : Rendered)
      else head ++ children.wrap (opening ++ ">") closing) (ms ++ ms') := by
  cases selfClosing with
  | true =>
    have hnil : ms' = [] := hchildren
    have hend := h.append (of_plain (r := { html := " />" }) rfl)
    rw [hnil]
    refine hend.congr rfl ?_
    change head.html ++ (opening ++ " />") = opening ++ " />"
    rw [hhead, List.nil_append]
  | false =>
    have hinner : Marked children ms' := hchildren
    have hend := h.append (hinner.wrap ">" closing)
    refine hend.congr rfl ?_
    change head.html ++ (opening ++ ['>'] ++ children.html ++ closing) =
      opening ++ (['>'] ++ children.html ++ closing)
    rw [hhead, List.nil_append]
    simp only [List.append_assoc]

/-- The mark of an element stands behind the placeholders of its attributes. -/
theorem element {children : Rendered} {selfClosing : Bool} (scope : Scope) (tag : Text)
    (attributes : List Attribute) (nested : List Node)
    (h : if selfClosing then ms = [] else Marked children ms) :
    Marked (renderElement scope tag attributes children selfClosing)
      ((Element.mark? ⟨tag, attributes, nested, selfClosing⟩).toList ++ ms) := by
  rw [Element.mark?, renderElement]
  rcases resolveTag tag with ⟨html, _ | name⟩
  · exact close (of_plain rfl) rfl h _
  · refine close ⟨rfl, ?_⟩ rfl h _
    dsimp only [Option.isSome_some]
    generalize renderAttributes scope true attributes = attached
    rw [List.append_assoc attached.leading, List.append_assoc attached.leading]
    exact .cons attached.leading (.nil attached.parts)

end Rendered.Marked

/-- The references of what is rendered are the names of the marked tags, as they come up. -/
theorem marked_render :
    (∀ scope (n : Node), (n.render scope).Marked (marks n.fates)) ∧
    (∀ scope (e : Expr), (e.render scope).Marked (marks e.fates)) ∧
    (∀ scope ns, (renderNodes scope ns).Marked (marks (nodesFates ns))) := by
  apply Node.render.mutual_induct
    (fun scope n ↦ (n.render scope).Marked (marks n.fates))
    (fun scope e ↦ (e.render scope).Marked (marks e.fates))
    (fun scope ns ↦ (renderNodes scope ns).Marked (marks (nodesFates ns)))
  case case1 =>
    intro scope source refs test consequent alternate ihc iha
    rw [Expr.render, Expr.fates, marks_append, marks_append, marks_allTo (by decide)]
    exact (ihc.branch.conditional iha.branch _).congr rfl rfl
  case case2 =>
    intro scope source refs left right ih
    rw [Expr.render, Expr.fates, marks_append, marks_allTo (by decide), List.nil_append]
    exact (ih.branch.wrap _ _).congr rfl rfl
  case case3 =>
    intro scope source refs callee source' refs' params block receiver
    rw [Expr.render, Expr.fates, marks_allTo (by decide)]
    exact .of_plain rfl
  case case4 =>
    intro scope _ _ _ _ _ params _ receiver b bound head warnings hhead ih
    rw [Expr.render, hhead, Expr.fates, marks_append, marks_allTo (by decide)]
    exact .append (.of_plain rfl) (ih.branch.wrap _ _)
  case case5 =>
    intro scope source refs node hroot ih
    rw [Expr.render, if_pos hroot, Expr.fates, if_pos hroot]
    exact ih
  case case6 =>
    intro scope source refs node hroot
    rw [Expr.render, if_neg hroot, Expr.fates, if_neg hroot, marks_allTo (by decide)]
    exact .of_plain rfl
  case case7 =>
    intro scope source refs kind
    rw [Expr.render, Expr.fates, marks_allTo (by decide)]
    · cases kind <;> exact .of_plain rfl
    all_goals (intros; contradiction)
  case case8 =>
    intro scope source refs params body block
    rw [Expr.render, Expr.fates, marks_allTo (by decide)]
    exact .of_plain rfl
  case case9 =>
    intro scope kind
    rw [Expr.render, Expr.fates, marks_allTo (by decide)]
    · exact .of_plain rfl
    all_goals (intros; contradiction)
  case case10 =>
    intro e scope h₁ h₂ h₃ h₄ h₅ h₆ h₇
    rw [Expr.render, Expr.fates, marks_allTo (by decide)] <;> try assumption
    exact .of_plain rfl
  case case11 =>
    intro scope tag attributes children selfClosing ih
    rw [Node.render, Node.fates]
    rw [marks_cons_tag, marks_append, marks_attributes, List.nil_append]
    refine .element scope tag attributes children ?_
    cases selfClosing with
    | true => exact marks_allTo (by decide) _
    | false => exact ih
  case case12 =>
    intro scope children ih
    rw [Node.render, Node.fates]
    exact ih
  case case15 =>
    intro scope e ih
    rw [Node.render, Node.fates]
    exact ih
  case case18 => exact fun scope ↦ .of_plain rfl
  case case19 =>
    intro scope n r ihn ihr
    rw [renderNodes, nodesFates, marks_append]
    exact ihn.append ihr
  -- The other nodes hold no elements.
  all_goals
    intros
    exact .of_plain rfl

section Read

open Erb Template

variable {scope : Scope} {isComponent : Bool}

/-- The components that the tags of a template are marked with, as a reader finds them. -/
def markedComponents (template : Text) : List Text :=
  ((tokenize template).filter isOpenTag).filterMap fun k ↦
    givenValue? (parseTag k.text) componentMarker

theorem spelled_parts {attributes : List Attribute}
    (h : ∀ a ∈ attributes, a.Lexable scope isComponent)
    (hne : ∀ a ∈ attributes, a.spelling? isComponent ≠ some componentMarker) :
    Spelled componentMarker (renderAttributes scope isComponent attributes).parts := by
  have hparts := spelled_foldl_renderAttribute (r := {}) (by decide) .nil h hne
  have hactions : ∀ w ∈ (renderAttributes scope isComponent attributes).actions,
      isQuotable w = true := (clean_renderAttributes h).actions
  have hjoin := cleanValue_of_isQuotable (isQuotable_join " " (by decide) hactions)
  rw [renderAttributes] at hjoin ⊢
  split
  · exact hparts
  next hsome =>
    rw [if_neg hsome] at hjoin
    exact hparts.append (.quoted (by decide) hjoin (by decide))

/-- The tag of an element is read with the mark that it was written with. -/
theorem givenValue?_token {e : Element} (h : e.Lexable scope)
    (hne : ∀ a ∈ e.attributes, a.spelling? (resolveTag e.tag).2.isSome ≠ some componentMarker) :
    givenValue? (parseTag (e.token scope).text) componentMarker = (resolveTag e.tag).2 := by
  have hnames := isMarkupName_resolveTag h.tag
  obtain ⟨as, hparts, has⟩ := spelled_parts h.attributes hne
  let marker (name : Text) : TagAttribute := { name := componentMarker, value := some name }
  let tag : Tag :=
    { name := (resolveTag e.tag).1
      attributes := (resolveTag e.tag).2.toList.map marker ++ as
      selfClosing := e.selfClosing }
  have hmarker : ∀ a ∈ (resolveTag e.tag).2.toList.map marker, CleanAttribute a := by
    refine List.forall_mem_map.2 fun name hname ↦ ?_
    have hquotable := isQuotable_of_all_isMarkupNamePart
      (all_of_isMarkupName (hnames.2 name (Option.mem_toList.1 hname)))
    exact .valued (by decide) (by decide) (cleanValue_of_isQuotable hquotable)
  have htext : (e.token scope).text = tag.render := by
    rw [text_token, hparts, Tag.render_eq rfl]
    cases hreference : (resolveTag e.tag).2 <;>
      simp [tag, marker, hreference, markerAttribute, quotedAttribute, spacedAttributes,
        TagAttribute.render]
  have hopen : OpenTagText tag tag.render :=
    openTagText_render (isTagName_of_isMarkupName hnames.1) rfl
      (List.forall_mem_append.2 ⟨hmarker, fun a ha ↦ (has a ha).clean⟩)
  have hnone : as.find? (·.name == componentMarker) = none :=
    List.find?_eq_none.2 fun a ha heq ↦ (has a ha).name (beq_iff_eq.1 heq)
  rw [htext, hopen.parseTag_eq, givenValue?, Tag.get?, List.find?_append, hnone, Option.or_none]
  cases hreference : (resolveTag e.tag).2 with
  | none => rfl
  | some name =>
    obtain ⟨c, r, rfl⟩ : ∃ c r, name = c :: r := by
      cases name with
      | nil => exact absurd (hnames.2 [] hreference) (by decide)
      | cons c r => exact ⟨c, r, rfl⟩
    simp [marker]

theorem filterMap_eq_of_forall₂ {α β γ : Type} {R : α → β → Prop} {f : α → Option γ}
    {g : β → Option γ} {l : List α} {m : List β} (h : List.Forall₂ R l m)
    (heq : ∀ a b, R a b → g b = f a) : m.filterMap g = l.filterMap f := by
  induction h with
  | nil => rfl
  | cons hab _ ih => rw [List.filterMap_cons, List.filterMap_cons, heq _ _ hab, ih]

/-- The marks that a tree is rendered with are those that a reader finds. -/
theorem markedComponents_render {root : Node} (h : root.Lexable scope)
    (hne : ∀ e ∈ root.elements, ∀ a ∈ e.attributes,
      a.spelling? (resolveTag e.tag).2.isSome ≠ some componentMarker) :
    markedComponents (root.render scope).html = (marks root.fates).map (·.name) := by
  have hdraws := draws_render.1 scope root h
  have htags : (tokenize (root.render scope).html).filter isOpenTag =
      openTags (root.blocks scope) := by
    rw [hdraws.html, tokenize_render_of_loose (loose_blocksTokens fun b hb ↦
      (hdraws.clean b hb).loose), joinTexts_filter fun _ ↦ rfl]
    rfl
  have hshown : ∀ e ∈ shown root.fates, ∀ a ∈ e.attributes,
      a.spelling? (resolveTag e.tag).2.isSome ≠ some componentMarker :=
    fun e he ↦ hne e (mem_elements_of_mem_shown he)
  have hread := (List.forall₂_and_left _ _).2 ⟨hshown, forall₂_opens.1 scope root h⟩
  have hnames : (marks root.fates).map (·.name) =
      (shown root.fates).filterMap fun e ↦ (resolveTag e.tag).2 := by
    rw [marks, List.map_filterMap]
    refine congrArg (List.filterMap · _) (funext fun e ↦ ?_)
    rw [Element.mark?, Option.map_map]
    cases (resolveTag e.tag).2 <;> rfl
  rw [markedComponents, htags, hnames]
  refine filterMap_eq_of_forall₂ hread ?_
  rintro e _ ⟨hplain, scope', hlexable, rfl⟩
  exact givenValue?_token hlexable hplain

end Read

end ViewForge.Markup

namespace ViewForge

open Text Markup

/-- What the markup of a definition comes to: a template, and the warnings of it. -/
inductive RenderedAs (props : List Text) : Option Node → Text → List Text → Prop
  | missing : RenderedAs props none (Placeholder.wholeTemplate noMarkupWarning) [noMarkupWarning]
  | misfit {root : Node} {m : Misfit} : renderRoot props root = .error m →
      RenderedAs props (some root)
        (Placeholder.wholeTemplate ("Failed to convert JSX to HTML: " ++ m.message))
        ["Failed to transform JSX to HTML: " ++ m.message]
  | blank {root : Node} {r : Rendered} : renderRoot props root = .ok r → isBlankText r.html = true →
      RenderedAs props (some root) (Placeholder.wholeTemplate emptyMarkupWarning)
        (r.warnings ++ [emptyMarkupWarning])
  | whole {root : Node} {r : Rendered} : renderRoot props root = .ok r → isBlankText r.html = false →
      RenderedAs props (some root) r.html r.warnings

theorem renderedAs_renderDefinition (props : List Text) (root? : Option Node) :
    RenderedAs props root? (renderDefinition props root?).html
      (renderDefinition props root?).warnings := by
  cases root? with
  | none => exact .missing
  | some root =>
    rw [renderDefinition]
    cases hroot : renderRoot props root with
    | error m => exact .misfit hroot
    | ok r =>
      dsimp only
      split
      next hblank => exact .blank hroot hblank
      next hwhole => exact .whole hroot (by simpa using hwhole)

namespace RenderedAs

variable {props : List Text} {root? : Option Node} {html : Text} {ws : List Text}

theorem isBlankText_eq_false (h : RenderedAs props root? html ws) : isBlankText html = false := by
  cases h with
  | missing | misfit | blank => rfl
  | whole _ hwhole => exact hwhole

/-- A placeholder for the whole of the markup brings a warning. -/
theorem exists_of_nil (h : RenderedAs props root? html ws) (hnil : ws = []) :
    ∃ root ∈ root?, ∃ r, renderRoot props root = .ok r ∧ html = r.html := by
  cases h with
  | missing => cases hnil
  | misfit _ => cases hnil
  | blank _ _ => exact absurd hnil (List.append_ne_nil_of_right_ne_nil _ (List.cons_ne_nil _ _))
  | whole hroot _ => exact ⟨_, rfl, _, hroot, rfl⟩

theorem cases_of_ok {root : Node} {r : Rendered} (h : RenderedAs props (some root) html ws)
    (hroot : renderRoot props root = .ok r) :
    (html = Placeholder.wholeTemplate emptyMarkupWarning ∧ isBlankText r.html = true) ∨
      html = r.html := by
  cases h with
  | misfit hmisfit => cases hmisfit.symm.trans hroot
  | blank hblank hempty =>
    cases hblank.symm.trans hroot
    exact .inl ⟨rfl, hempty⟩
  | whole hwhole _ =>
    cases hwhole.symm.trans hroot
    exact .inr rfl

end RenderedAs

theorem references_renderDefinition {props : List Text} {root : Node} {r : Rendered}
    (h : renderRoot props root = .ok r) :
    (renderDefinition props (some root)).references = r.references := by
  rw [renderDefinition, h]
  dsimp only
  split <;> rfl

theorem Markup.marked_renderRoot {props : List Text} {root : Node} {r : Rendered}
    (h : renderRoot props root = .ok r) : r.Marked (marks root.fates) := by
  rw [renderRoot] at h
  split at h
  · dsimp only at h
    split at h <;> cases h
    exact marked_render.1 _ root
  · cases h

theorem Markup.InOrder.eq_nil_of_isBlankText {ms : List Mark} {t : Text}
    (h : InOrder (ms.map Mark.opening) t) (hblank : isBlankText t = true) : ms = [] := by
  cases ms with
  | nil => rfl
  | cons m ms =>
    obtain ⟨before, r, rfl⟩ : ∃ before r, t = before ++ m.opening ++ r := by
      cases h with
      | cons before _ => exact ⟨before, _, rfl⟩
    have hmem : '<' ∈ before ++ m.opening ++ r := by simp [Mark.opening]
    exact absurd (List.all_eq_true.1 hblank _ hmem) (by decide)

structure IsNormalForm (d : Definition) (c : Component) : Prop where
  html : isBlankText c.html = false
  props : c.props = d.props.filter (!·.isRest) ++ (d.props.find? (·.isRest)).toList
  events : FirstOf (fun e ↦ (e.event, e.handler)) d.events c.events
  references : c.references.Nodup
  marked : ∀ root ∈ d.roots.head?, ∀ r, renderRoot (c.props.map (·.name)) root = .ok r →
    FirstOf id ((marks root.fates).map (·.name)) c.references ∧
      InOrder ((marks root.fates).map Mark.opening) r.html
  tags : ∀ root ∈ d.roots.head?, root.isRoot = true →
    root.Lexable { props := c.props.map (·.name) } →
    (∀ e ∈ root.elements, ∀ a ∈ e.attributes,
      a.spelling? (resolveTag e.tag).2.isSome ≠ some componentMarker) →
    FirstOf id (markedComponents c.html) c.references
  warnings : ∃ ws, RenderedAs (c.props.map (·.name)) d.roots.head? c.html ws ∧
    c.warnings = d.warnings ++ ws ++ (if d.hasState then [stateWarning] else []) ∧
    (ws = [] → ∃ root ∈ d.roots.head?, ∃ r,
      renderRoot (c.props.map (·.name)) root = .ok r ∧ c.html = r.html)

theorem firstOf_references (withSlots : Bool) {d : Definition} {root : Node} {r : Rendered}
    (hroot : root ∈ d.roots.head?)
    (hr : renderRoot ((Component.ofDefinition withSlots d).props.map (·.name)) root = .ok r) :
    FirstOf id ((marks root.fates).map (·.name))
      (Component.ofDefinition withSlots d).references := by
  have hreferences : (Component.ofDefinition withSlots d).references = distinct r.references := by
    change distinct (renderDefinition _ d.roots.head?).references = _
    rw [Option.mem_def.1 hroot]
    exact congrArg distinct (references_renderDefinition hr)
  rw [hreferences, distinct_eq, (marked_renderRoot hr).references]
  exact firstOf_foldl _

theorem isNormalForm_ofDefinition (withSlots : Bool) (d : Definition) :
    IsNormalForm d (.ofDefinition withSlots d) where
  html := (renderedAs_renderDefinition _ _).isBlankText_eq_false
  props := by
    have hrest : (d.props.filter (·.isRest)).take 1 = (d.props.find? (·.isRest)).toList := by
      rw [← List.head?_filter]
      cases d.props.filter (·.isRest) <;> rfl
    change normalizeProps d.props = _
    rw [normalizeProps, hrest]
  events := by
    change FirstOf _ d.events (normalizeEvents d.events)
    rw [normalizeEvents_eq]
    exact firstOf_foldl d.events
  references := by
    change (distinct _).Nodup
    rw [distinct_eq, ← List.map_id (List.foldl _ _ _)]
    exact (firstOf_foldl _).nodup
  marked root hroot r hr := ⟨firstOf_references withSlots hroot hr, (marked_renderRoot hr).html⟩
  tags root hroot hisRoot hlexable hown := by
    have hread := markedComponents_render hlexable hown
    have hrender := renderRoot_of_lexable hisRoot hlexable
    have hfirst := firstOf_references withSlots hroot hrender
    have hrendered := renderedAs_renderDefinition
      ((Component.ofDefinition withSlots d).props.map (·.name)) (some root)
    have hhtml : (Component.ofDefinition withSlots d).html = (renderDefinition
        ((Component.ofDefinition withSlots d).props.map (·.name)) (some root)).html := by
      rw [← Option.mem_def.1 hroot]
      rfl
    rw [hhtml]
    rcases hrendered.cases_of_ok hrender with ⟨hhtml, hblank⟩ | hhtml
    · have hnone := (marked_renderRoot hrender).html.eq_nil_of_isBlankText hblank
      have hplaceholder :
          markedComponents (Placeholder.wholeTemplate emptyMarkupWarning) = [] := by
        decide +kernel
      rw [hhtml, hplaceholder]
      rwa [hnone] at hfirst
    · rw [hhtml, hread]
      exact hfirst
  warnings := ⟨_, renderedAs_renderDefinition _ _, rfl,
    (renderedAs_renderDefinition _ _).exists_of_nil⟩

section Generate

open Project

/-- A console that takes the detail about markup that cannot be rendered gets a component for every
definition, and the component is in normal form. -/
theorem isNormalForm_generate (withSlots : Bool) (d : Definition) (session : Session)
    (hheard : ∀ m, d.misfit? = some m →
      session.console.refusal? .debug (misfitLine d.path m) = none) :
    (∃ logs, outcome (generate withSlots d) session =
      (.ok (.ofDefinition withSlots d), { session with logs })) ∧
    IsNormalForm d (.ofDefinition withSlots d) := by
  refine ⟨?_, isNormalForm_ofDefinition withSlots d⟩
  rcases generate_cases withSlots d session with ⟨m, reason, hm, hrefused, -⟩ | ⟨-, hdone⟩
  · cases (hheard m hm).symm.trans hrefused
  · exact hdone

def framedIcon : Definition where
  name := "Frame"
  roots := [.element "Card" [] [.element "Icon" [] [] true, .element "Card" [] [] true] false]

/-- A value stands where a child should. -/
def misplacedValue : Definition where
  name := "Card"
  path := "Card.jsx"
  roots := [.element "p" [] [.misplaced "StringValue"] false]

def attentive : Session where
  store := { current := [], entries := [] }
  console := { tagConsole with verbose := true }

theorem isNormalForm_generate_framedIcon :
    (∃ logs, outcome (generate true framedIcon) attentive =
      (.ok (.ofDefinition true framedIcon), { attentive with logs })) ∧
    markedComponents (Component.ofDefinition true framedIcon).html =
      [("Card" : Text), "Icon", "Card"] ∧
    (Component.ofDefinition true framedIcon).references = [("Card" : Text), "Icon"] ∧
    FirstOf id (markedComponents (Component.ofDefinition true framedIcon).html)
      (Component.ofDefinition true framedIcon).references ∧
    misplacedValue.misfit? = some (.child "StringValue") ∧
    (∃ logs, outcome (generate true misplacedValue) attentive =
      (.ok (.ofDefinition true misplacedValue), { attentive with logs })) ∧
    (Component.ofDefinition true misplacedValue).html =
      "<div><!-- TODO: Failed to convert JSX to HTML: Unhandled markup child: StringValue --></div>" := by
  have hlexable (scope : Scope) : Node.Lexable scope
      (.element "Card" [] [.element "Icon" [] [] true, .element "Card" [] [] true] false) := by
    simp only [Node.Lexable, LexableNodes]
    exact ⟨by decide, List.forall_mem_nil _, .inr ⟨⟨by decide, List.forall_mem_nil _, .inl trivial⟩,
      ⟨by decide, List.forall_mem_nil _, .inl trivial⟩, trivial⟩⟩
  have hmisfit : misplacedValue.misfit? = some (.child "StringValue") := by decide +kernel
  have hnone : framedIcon.misfit? = none := by decide +kernel
  obtain ⟨hmade, hnormal⟩ := isNormalForm_generate true framedIcon attentive fun m hm ↦ by
    rw [hnone] at hm
    cases hm
  have htold := isNormalForm_generate true misplacedValue attentive fun m hm ↦ by
    cases hmisfit.symm.trans hm
    decide +kernel
  have htags := hnormal.tags _ rfl rfl (hlexable _) (by decide)
  exact ⟨hmade, by decide +kernel, by decide +kernel, htags, hmisfit, htold.1, by decide +kernel⟩

def markedParagraph : Definition where
  name := "Card"
  roots := [.element "p" [.named componentMarker (some (.string "Foo"))] [] false]

/-- A mark that the source itself gives a tag is no reference. A path that holds an end tag keeps a
verbose console from showing that markup cannot be rendered, and no component is made. -/
theorem generate_markedParagraph :
    (∃ r, renderRoot [] (.element "p" [.named componentMarker (some (.string "Foo"))] [] false) =
      .ok r) ∧
    (Component.ofDefinition true markedParagraph).html = "<p data-v0-component=\"Foo\"></p>" ∧
    markedComponents (Component.ofDefinition true markedParagraph).html = [("Foo" : Text)] ∧
    (Component.ofDefinition true markedParagraph).references = [] ∧
    failureMessage?
        (outcome (generate true { misplacedValue with path := "a[/b].jsx" }) attentive).1 =
      some "closing tag '[/b]' at position 24 doesn't match any open tag".toList :=
  ⟨⟨_, rfl⟩, by decide +kernel⟩

end Generate

end ViewForge
