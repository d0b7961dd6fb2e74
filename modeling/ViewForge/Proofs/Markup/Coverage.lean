import Mathlib.Data.List.Forall2
import ViewForge.Proofs.Markup.TokenSequence
import ViewForge.Template.Icon

namespace ViewForge.Markup

open Text Erb Template

inductive Fate where
  | tag
  | reported
  | lost
  deriving DecidableEq, Repr

def allTo (fate : Fate) (es : List Element) : List (Element × Fate) := es.map (·, fate)

/-- Markup and functions are refused as the value of an attribute, unless the attribute is dropped
or binds an event. -/
def attributeFate (isComponent : Bool) (name : Text) (e : Expr) : Fate :=
  if isAmong name droppedAttributes || (isEventName name && !isComponent) then .lost
  else
    match e with
    | .markup .. | .function .. => .reported
    | _ => .lost

def Attribute.fates (isComponent : Bool) : Attribute → List (Element × Fate)
  | .named name (some (.expression (some e))) =>
    allTo (attributeFate isComponent name e) e.elements
  | _ => []

mutual

def Node.fates : Node → List (Element × Fate)
  | .element tag attributes children selfClosing =>
    (⟨tag, attributes, children, selfClosing⟩, .tag) ::
      (attributes.flatMap (·.fates (resolveTag tag).2.isSome) ++
        if selfClosing then allTo .lost (nodesElements children) else nodesFates children)
  | .fragment children => nodesFates children
  | .container (some e) => e.fates
  | _ => []

def nodesFates : List Node → List (Element × Fate)
  | [] => []
  | n :: r => n.fates ++ nodesFates r

def Expr.fates (e : Expr) : List (Element × Fate) :=
  match e with
  | .conditional _ _ test consequent alternate =>
    allTo .lost test.elements ++ consequent.fates ++ alternate.fates
  | .logical _ _ .and left right => allTo .lost left.elements ++ right.fates
  | .call _ _ callee [.function _ _ _ body _] (some ['m', 'a', 'p']) (some _) =>
    match body with
    | none => allTo .reported callee.elements
    | some b => allTo .lost callee.elements ++ b.fates
  | .markup _ _ node => if node.isRoot then node.fates else allTo .lost node.elements
  | .function .. => allTo .reported e.elements
  | _ => allTo .lost e.elements

end

theorem map_fst_allTo (fate : Fate) (es : List Element) : (allTo fate es).map Prod.fst = es := by
  rw [allTo, List.map_map]
  exact List.map_id es

theorem map_fst_attributesFates (isComponent : Bool) (as : List Attribute) :
    (as.flatMap (·.fates isComponent)).map Prod.fst = attributeElements as := by
  induction as with
  | nil => rfl
  | cons a r ih =>
    rw [List.flatMap_cons, List.map_append, ih]
    fun_cases Attribute.fates isComponent a with
    | case1 name e => rw [attributeElements, map_fst_allTo]
    | case2 a ha =>
      rw [attributeElements]
      · rfl
      · exact ha

/-- No element is left out, and none counts twice. -/
theorem map_fst_fates :
    (∀ n : Node, n.fates.map Prod.fst = n.elements) ∧
    (∀ e : Expr, e.fates.map Prod.fst = e.elements) ∧
    (∀ ns, (nodesFates ns).map Prod.fst = nodesElements ns) := by
  apply Node.fates.mutual_induct
    (fun n ↦ n.fates.map Prod.fst = n.elements)
    (fun e ↦ e.fates.map Prod.fst = e.elements)
    (fun ns ↦ (nodesFates ns).map Prod.fst = nodesElements ns)
  case case1 =>
    intro source refs test consequent alternate ihc iha
    rw [Expr.fates, Expr.elements, List.map_append, List.map_append, map_fst_allTo, ihc, iha]
  case case2 =>
    intro source refs left right ih
    rw [Expr.fates, Expr.elements, List.map_append, map_fst_allTo, ih]
  case case3 =>
    intro source refs callee source' refs' params block receiver
    rw [Expr.fates, map_fst_allTo]
    simp only [Expr.elements, exprsElements, List.append_nil]
  case case4 =>
    intro source refs callee source' refs' params block receiver b ih
    rw [Expr.fates, List.map_append, map_fst_allTo, ih]
    simp only [Expr.elements, exprsElements, List.append_nil]
  case case5 =>
    intro source refs node hroot ih
    rw [Expr.fates, if_pos hroot, ih, Expr.elements]
  case case6 =>
    intro source refs node hroot
    rw [Expr.fates, if_neg hroot, map_fst_allTo, Expr.elements]
  case case7 =>
    intro source refs params body block
    rw [Expr.fates, map_fst_allTo]
  case case8 =>
    intro e h₁ h₂ h₃ h₄ h₅
    rw [Expr.fates, map_fst_allTo] <;> assumption
  case case9 =>
    intro tag attributes children selfClosing ih
    rw [Node.fates, Node.elements, List.map_cons, List.map_append, map_fst_attributesFates]
    split
    · rw [map_fst_allTo]
    · rw [ih]
  case case10 =>
    intro children ih
    rw [Node.fates, Node.elements, ih]
  case case11 =>
    intro e ih
    rw [Node.fates, Node.elements, ih]
  case case12 =>
    intro n h₁ h₂ h₃
    rw [Node.fates, Node.elements] <;> try assumption
    rfl
  case case13 => rfl
  case case14 =>
    intro n r ihn ihr
    rw [nodesFates, nodesElements, List.map_append, ihn, ihr]

section Reported

def Unreported (fs : List (Element × Fate)) : Prop := ∀ f ∈ fs, f.2 ≠ .reported

theorem unreported_allTo {fate : Fate} (h : fate ≠ .reported) (es : List Element) :
    Unreported (allTo fate es) := by
  intro f hf
  obtain ⟨e, -, rfl⟩ := List.mem_map.1 hf
  exact h

theorem unreported_nil : Unreported [] := List.forall_mem_nil _

theorem Unreported.append {fs gs : List (Element × Fate)} (hf : Unreported fs)
    (hg : Unreported gs) : Unreported (fs ++ gs) := List.forall_mem_append.2 ⟨hf, hg⟩

variable {scope : Scope} {isComponent : Bool}

theorem warnings_add {r : RenderedAttributes} {t : AttributeText} (h : (r.add t).warnings = []) :
    r.warnings = [] ∧ ∀ reason, t ≠ .failure reason := by
  cases t with
  | part t => exact ⟨h, nofun⟩
  | misfit m => exact ⟨h, nofun⟩
  | failure reason => exact absurd h (List.append_ne_nil_of_right_ne_nil _ (List.cons_ne_nil _ _))

theorem attributeFate_of_unwritten {name : Text} (e : Expr)
    (h : isAmong name droppedAttributes = true ∨ (isEventName name && !isComponent) = true) :
    attributeFate isComponent name e = .lost := by
  unfold attributeFate
  exact if_pos (Bool.or_eq_true_iff.2 h)

theorem attributeFate_of_not_failure {name html : Text} {e : Expr}
    (h : ∀ reason, expressionAttribute scope isComponent name html e ≠ .failure reason) :
    attributeFate isComponent name e = .lost := by
  unfold attributeFate
  split
  · rfl
  · cases e with
    | markup | function => exact absurd rfl (h _)
    | _ => rfl

theorem warnings_renderAttribute {r : RenderedAttributes} {a : Attribute}
    (h : (renderAttribute scope isComponent r a).warnings = []) :
    r.warnings = [] ∧ Unreported (a.fates isComponent) := by
  fun_cases Attribute.fates isComponent a with
  | case2 a ha =>
    refine ⟨?_, unreported_nil⟩
    cases a with
    | spread argument => exact h
    | misplaced kind name => exact h
    | named name value =>
      rw [renderAttribute] at h
      split at h
      · exact h
      · split at h
        · exact h
        · exact (warnings_add h).1
  | case1 name e =>
    have hlost : r.warnings = [] ∧ attributeFate isComponent name e = .lost := by
      rw [renderAttribute] at h
      split at h
      next hdropped => exact ⟨h, attributeFate_of_unwritten e (.inl hdropped)⟩
      · split at h
        next hevent => exact ⟨h, attributeFate_of_unwritten e (.inr hevent)⟩
        · obtain ⟨hr, hvalue⟩ := warnings_add h
          exact ⟨hr, attributeFate_of_not_failure hvalue⟩
    exact ⟨hlost.1, unreported_allTo (by rw [hlost.2]; decide) _⟩

theorem warnings_foldl_renderAttribute {attributes : List Attribute} {r : RenderedAttributes}
    (h : (attributes.foldl (renderAttribute scope isComponent) r).warnings = []) :
    r.warnings = [] ∧ Unreported (attributes.flatMap (·.fates isComponent)) := by
  induction attributes generalizing r with
  | nil => exact ⟨h, unreported_nil⟩
  | cons a attributes ih =>
    obtain ⟨ha, hattributes⟩ := ih h
    obtain ⟨hr, hfates⟩ := warnings_renderAttribute ha
    exact ⟨hr, hfates.append hattributes⟩

theorem unreported_of_renderAttributes {attributes : List Attribute}
    (h : (renderAttributes scope isComponent attributes).warnings = []) :
    Unreported (attributes.flatMap (·.fates isComponent)) := by
  rw [renderAttributes] at h
  split at h <;> exact (warnings_foldl_renderAttribute h).2

theorem warnings_renderElement {tag : Text} {attributes : List Attribute} {children : Rendered}
    {selfClosing : Bool}
    (h : (renderElement scope tag attributes children selfClosing).warnings = []) :
    (renderAttributes scope (resolveTag tag).2.isSome attributes).warnings = [] ∧
      (selfClosing = true ∨ children.warnings = []) := by
  rw [renderElement] at h
  cases selfClosing with
  | true => exact ⟨(List.append_eq_nil_iff.1 h).1, .inl rfl⟩
  | false => exact (List.append_eq_nil_iff.1 h).imp id .inr

theorem fates_of_isEmptyBranch {e : Expr} (h : e.isEmptyBranch = true) : e.fates = [] := by
  cases e with
  | literal => rfl
  | _ => cases h

theorem unreported_branch {e : Expr} {scope : Scope}
    (ih : (e.render scope).warnings = [] → Unreported e.fates)
    (h : (if e.isEmptyBranch then {} else e.render scope : Rendered).warnings = []) :
    Unreported e.fates := by
  split at h
  next hempty =>
    rw [fates_of_isEmptyBranch hempty]
    exact unreported_nil
  next => exact ih h

/-- What is rendered without a warning leaves no element to report. -/
theorem unreported_render :
    (∀ scope (n : Node), (n.render scope).warnings = [] → Unreported n.fates) ∧
    (∀ scope (e : Expr), (e.render scope).warnings = [] → Unreported e.fates) ∧
    (∀ scope ns, (renderNodes scope ns).warnings = [] → Unreported (nodesFates ns)) := by
  apply Node.render.mutual_induct
    (fun scope n ↦ (n.render scope).warnings = [] → Unreported n.fates)
    (fun scope e ↦ (e.render scope).warnings = [] → Unreported e.fates)
    (fun scope ns ↦ (renderNodes scope ns).warnings = [] → Unreported (nodesFates ns))
  case case1 =>
    intro scope source refs test consequent alternate ihc iha h
    rw [Expr.render] at h
    obtain ⟨hbranches, -⟩ := List.append_eq_nil_iff.1 h
    obtain ⟨hc, ha⟩ := List.append_eq_nil_iff.1 hbranches
    rw [Expr.fates]
    exact ((unreported_allTo (by decide) _).append (unreported_branch ihc hc)).append
      (unreported_branch iha ha)
  case case2 =>
    intro scope source refs left right ih h
    rw [Expr.render] at h
    rw [Expr.fates]
    exact (unreported_allTo (by decide) _).append (unreported_branch ih h)
  case case3 =>
    intro scope source refs callee source' refs' params block receiver h
    rw [Expr.render] at h
    cases h
  case case4 =>
    intro scope _ _ _ _ _ params _ receiver b bound head warnings hhead ih h
    rw [Expr.render, hhead] at h
    rw [Expr.fates]
    exact (unreported_allTo (by decide) _).append
      (unreported_branch ih (List.append_eq_nil_iff.1 h).2)
  case case5 =>
    intro scope source refs node hroot ih h
    rw [Expr.render, if_pos hroot] at h
    rw [Expr.fates, if_pos hroot]
    exact ih h
  case case6 =>
    intro scope source refs node hroot h
    rw [Expr.fates, if_neg hroot]
    exact unreported_allTo (by decide) _
  case case7 =>
    intro scope source refs kind h
    exact unreported_allTo (by decide) _
  case case8 =>
    intro scope source refs params body block h
    rw [Expr.render] at h
    cases h
  case case9 =>
    intro scope kind h
    exact unreported_allTo (by decide) _
  case case10 =>
    intro e scope h₁ h₂ h₃ h₄ h₅ h₆ h₇ h
    rw [Expr.fates] <;> try assumption
    exact unreported_allTo (by decide) _
  case case11 =>
    intro scope tag attributes children selfClosing ih h
    rw [Node.render] at h
    obtain ⟨hattributes, hchildren⟩ := warnings_renderElement h
    rw [Node.fates]
    refine List.forall_mem_cons.2 ⟨Fate.noConfusion,
      (unreported_of_renderAttributes hattributes).append ?_⟩
    split
    · exact unreported_allTo (by decide) _
    next hclosing =>
      rw [if_neg hclosing] at hchildren
      exact ih (hchildren.resolve_left hclosing)
  case case12 =>
    intro scope children ih h
    rw [Node.render] at h
    rw [Node.fates]
    exact ih h
  case case15 =>
    intro scope e ih h
    rw [Node.render] at h
    rw [Node.fates]
    exact ih h
  case case18 => exact fun scope _ ↦ unreported_nil
  case case19 =>
    intro scope n r ihn ihr h
    rw [renderNodes] at h
    obtain ⟨hn, hr⟩ := List.append_eq_nil_iff.1 h
    rw [nodesFates]
    exact (ihn hn).append (ihr hr)
  -- The other nodes hold no elements.
  all_goals
    intros
    exact unreported_nil

end Reported

section Tags

def shown (fs : List (Element × Fate)) : List Element := (fs.filter (·.2 == .tag)).map Prod.fst

theorem shown_append (fs gs : List (Element × Fate)) : shown (fs ++ gs) = shown fs ++ shown gs := by
  rw [shown, List.filter_append, List.map_append]
  rfl

theorem shown_allTo {fate : Fate} (h : fate ≠ .tag) (es : List Element) :
    shown (allTo fate es) = [] := by
  rw [shown, allTo, List.map_eq_nil_iff, List.filter_eq_nil_iff, List.forall_mem_map]
  exact fun e _ ↦ beq_eq_false_iff_ne.2 h ▸ Bool.false_ne_true

theorem shown_attributes (isComponent : Bool) (as : List Attribute) :
    shown (as.flatMap (·.fates isComponent)) = [] := by
  induction as with
  | nil => rfl
  | cons a as ih =>
    rw [List.flatMap_cons, shown_append, ih, List.append_nil]
    fun_cases Attribute.fates isComponent a with
    | case1 name e =>
      refine shown_allTo ?_ _
      unfold attributeFate
      repeat' split
      all_goals decide
    | case2 => rfl

def Element.token (scope : Scope) (e : Element) : Token :=
  let (html, reference) := resolveTag e.tag
  let written :=
    markerAttribute reference ++ (renderAttributes scope reference.isSome e.attributes).parts
  if e.selfClosing then selfClosingToken html written else openToken html written

structure Element.Lexable (scope : Scope) (e : Element) : Prop where
  tag : (splitOn '.' e.tag).all isMarkupName = true
  attributes : ∀ a ∈ e.attributes, a.Lexable scope (resolveTag e.tag).2.isSome

def Opens (e : Element) (k : Token) : Prop := ∃ scope, e.Lexable scope ∧ k = e.token scope

def openTags (bs : List Block) : List Token := (blocksTokens bs).filter isOpenTag

theorem openTags_append (bs bs' : List Block) :
    openTags (bs ++ bs') = openTags bs ++ openTags bs' := by
  rw [openTags, blocksTokens_append, List.filter_append]
  rfl

theorem openTags_singleton (b : Block) : openTags [b] = b.tokens.filter isOpenTag := by
  rw [openTags, blocksTokens, blocksTokens, List.append_nil]

theorem openTags_placeholders (reasons : List Text) :
    openTags (reasons.map .placeholder) = [] := by
  induction reasons with
  | nil => rfl
  | cons reason reasons ih => exact ih

theorem openTags_guard (test : Text) (bs : List Block) :
    openTags [.guard test bs] = openTags bs := by
  rw [openTags_singleton, Block.tokens, filter_enclosed rfl rfl]
  rfl

theorem openTags_loop (receiver item : Text) (index : Option Text) (bs : List Block) :
    openTags [.loop receiver item index bs] = openTags bs := by
  rw [openTags_singleton, Block.tokens, filter_enclosed rfl rfl]
  rfl

/-- Blocks that come to nothing hold no tag: the token of a tag is not empty. -/
theorem openTags_eq_nil {bs : List Block} (h : ∀ b ∈ bs, b.Clean)
    (hnil : render (blocksTokens bs) = []) : openTags bs = [] := by
  rw [openTags, List.filter_eq_nil_iff]
  intro k hk hopen
  have hkind : k.kind ≠ .text := fun htext ↦ by rw [isOpenTag, htext] at hopen; cases hopen
  have hloose := loose_blocksTokens (fun b hb ↦ (h b hb).loose) k hk
  rw [Token.Loose, if_neg hkind] at hloose
  exact hloose.text_ne_nil (List.flatMap_eq_nil_iff.1 hnil k hk)

theorem openTags_conditional (test : Text) (yes : List Block) {no : List Block}
    (h : ∀ b ∈ no, b.Clean) :
    openTags [conditionalBlock test yes no] = openTags yes ++ openTags no := by
  rw [conditionalBlock]
  split
  next hempty =>
    rw [openTags_guard, openTags_eq_nil h (List.isEmpty_iff.1 hempty), List.append_nil]
  next =>
    have hno : (codeToken "else" :: blocksTokens no ++ [codeToken "end"]).filter isOpenTag = _ :=
      filter_enclosed rfl rfl _
    rw [openTags_singleton, Block.tokens, List.append_assoc, List.filter_append, hno,
      List.filter_cons_of_neg Bool.false_ne_true]
    rfl

theorem openTags_element (scope : Scope) (tag : Text) (attributes : List Attribute)
    (children : List Block) (selfClosing : Bool) (cs : List Node) :
    openTags (elementBlocks scope tag attributes children selfClosing) =
      Element.token scope ⟨tag, attributes, cs, selfClosing⟩ ::
        if selfClosing then [] else openTags children := by
  rw [elementBlocks, openTags_append, openTags_placeholders, List.nil_append, openTags_singleton]
  cases selfClosing with
  | true => rfl
  | false =>
    have htokens : ∀ html written : Text,
        (Block.element html written children).tokens.filter isOpenTag =
          openToken html written :: openTags children := by
      intro html written
      rw [Block.tokens, List.cons_append, List.filter_cons_of_pos rfl, List.filter_append]
      exact congrArg _ (List.append_nil _)
    exact htokens _ _

theorem forall₂_branch {scope : Scope} {e : Expr}
    (h : e.isEmptyBranch = true ∨ List.Forall₂ Opens (shown e.fates) (openTags (e.blocks scope))) :
    List.Forall₂ Opens (shown e.fates)
      (openTags (if e.isEmptyBranch then [] else e.blocks scope)) := by
  split
  next hempty =>
    rw [fates_of_isEmptyBranch hempty]
    exact .nil
  next hfull => exact h.resolve_left hfull

/-- The tags of a rendering are, in order, those of the elements that a tag is written for. -/
theorem forall₂_opens :
    (∀ scope (n : Node), n.Lexable scope →
      List.Forall₂ Opens (shown n.fates) (openTags (n.blocks scope))) ∧
    (∀ scope (e : Expr), e.Lexable scope →
      List.Forall₂ Opens (shown e.fates) (openTags (e.blocks scope))) ∧
    (∀ scope ns, LexableNodes scope ns →
      List.Forall₂ Opens (shown (nodesFates ns)) (openTags (nodesBlocks scope ns))) := by
  apply Node.render.mutual_induct
    (fun scope n ↦ n.Lexable scope →
      List.Forall₂ Opens (shown n.fates) (openTags (n.blocks scope)))
    (fun scope e ↦ e.Lexable scope →
      List.Forall₂ Opens (shown e.fates) (openTags (e.blocks scope)))
    (fun scope ns ↦ LexableNodes scope ns →
      List.Forall₂ Opens (shown (nodesFates ns)) (openTags (nodesBlocks scope ns)))
  case case1 =>
    intro scope source refs test consequent alternate ihc iha h
    rw [Expr.Lexable] at h
    obtain ⟨-, hc, ha⟩ := h
    have hclean := (Rendered.Draws.branch (ha.imp_right (draws_render.2.1 scope alternate))).clean
    rw [Expr.fates, Expr.blocks, openTags_conditional _ _ hclean, shown_append, shown_append,
      shown_allTo (by decide), List.nil_append]
    exact List.rel_append (forall₂_branch (hc.imp_right ihc)) (forall₂_branch (ha.imp_right iha))
  case case2 =>
    intro scope source refs left right ih h
    rw [Expr.Lexable] at h
    rw [Expr.fates, Expr.blocks, openTags_guard, shown_append, shown_allTo (by decide),
      List.nil_append]
    exact forall₂_branch (h.2.imp_right ih)
  case case3 =>
    intro scope source refs callee source' refs' params block receiver h
    rw [Expr.fates, Expr.blocks, shown_allTo (by decide)]
    exact .nil
  case case4 =>
    intro scope _ _ _ _ _ params _ receiver b bound head warnings hhead ih h
    rw [Expr.Lexable] at h
    obtain ⟨-, -, -, -, hb⟩ := h
    obtain ⟨loopWarnings, heq⟩ := loopHead_eq (receiver.code scope) params
    rw [heq, Prod.mk.injEq] at hhead
    obtain ⟨rfl, -⟩ := hhead
    rw [Expr.fates, Expr.blocks, openTags_loop, shown_append, shown_allTo (by decide),
      List.nil_append]
    exact forall₂_branch (hb.imp_right ih)
  case case5 =>
    intro scope source refs node hroot ih h
    rw [Expr.Lexable] at h
    rw [Expr.fates, Expr.blocks, if_pos hroot, if_pos hroot]
    exact ih h.2
  case case6 =>
    intro scope source refs node hroot h
    rw [Expr.Lexable] at h
    exact absurd h.1 hroot
  case case7 =>
    intro scope source refs kind h
    rw [Expr.blocks]
    cases kind <;> exact .nil
  case case8 =>
    intro scope source refs params body block h
    rw [Expr.fates, Expr.blocks, shown_allTo (by decide)]
    exact .nil
  case case9 =>
    intro scope kind h
    exact .nil
  case case10 =>
    intro e scope h₁ h₂ h₃ h₄ h₅ h₆ h₇ h
    rw [Expr.fates, Expr.blocks] <;> try assumption
    rw [shown_allTo (by decide)]
    exact .nil
  case case11 =>
    intro scope tag attributes children selfClosing ih h
    rw [Node.Lexable] at h
    obtain ⟨htag, ha, hchildren⟩ := h
    rw [Node.fates, Node.blocks, openTags_element _ _ _ _ _ children]
    refine .cons ⟨scope, ⟨htag, ha⟩, rfl⟩ ?_
    rw [← shown, shown_append, shown_attributes, List.nil_append]
    split
    · rw [shown_allTo (by decide)]
      exact .nil
    next hclosing => exact ih (hchildren.resolve_left hclosing)
  case case12 =>
    intro scope children ih h
    rw [Node.Lexable] at h
    rw [Node.fates, Node.blocks]
    exact ih h
  case case15 =>
    intro scope e ih h
    rw [Node.Lexable] at h
    rw [Node.fates, Node.blocks]
    exact ih h
  case case18 => exact fun scope _ ↦ .nil
  case case19 =>
    intro scope n r ihn ihr h
    rw [LexableNodes] at h
    rw [nodesFates, nodesBlocks, openTags_append, shown_append]
    exact List.rel_append (ihn h.1) (ihr h.2)
  -- The other nodes hold no elements and write no tag.
  all_goals
    intros
    exact .nil

end Tags

/-- Every fate is one of the three. -/
theorem length_eq_countP_fate (fs : List (Element × Fate)) :
    fs.length = (shown fs).length + fs.countP (·.2 == .reported) + fs.countP (·.2 == .lost) := by
  induction fs with
  | nil => rfl
  | cons f fs ih =>
    obtain ⟨e, fate⟩ := f
    rw [shown] at ih ⊢
    cases fate <;> simp [ih] <;> omega

theorem countP_reported {fs : List (Element × Fate)} (h : Unreported fs) :
    fs.countP (·.2 == .reported) = 0 :=
  List.countP_eq_zero.2 fun f hf ↦ beq_eq_false_iff_ne.2 (h f hf) ▸ Bool.false_ne_true

/-- The tags of a template are those of the elements that a tag is written for, in order. Without
a warning the other elements are the lost ones: those in a code, in a handler, in a value that is
written as code or dropped, or between the tags of an element that closes itself. -/
theorem countP_isOpenTag_renderRoot (props : List Text) (root : Node) (hroot : root.isRoot = true)
    (h : root.Lexable { props }) :
    ∃ r, renderRoot props root = .ok r ∧
      List.Forall₂ Opens (shown root.fates) ((tokenize r.html).filter isOpenTag) ∧
      (r.warnings = [] → (tokenize r.html).countP isOpenTag + root.fates.countP (·.2 == .lost) =
        root.elements.length) := by
  have hdraws := draws_render.1 { props } root h
  have htags : (tokenize (root.render { props }).html).filter isOpenTag =
      openTags (root.blocks { props }) := by
    rw [hdraws.html, tokenize_blocks hdraws.clean, joinTexts_filter (fun _ ↦ rfl)]
    rfl
  have hopens := forall₂_opens.1 { props } root h
  refine ⟨root.render { props }, ?_, htags ▸ hopens, fun hwarnings ↦ ?_⟩
  · simp only [renderRoot, if_pos hroot, hdraws.misfits]
  · have hreported := countP_reported (unreported_render.1 _ root hwarnings)
    rw [List.countP_eq_length_filter, htags, ← hopens.length_eq, ← map_fst_fates.1 root,
      List.length_map, length_eq_countP_fate root.fates, hreported, Nat.add_zero]

def besideNote (operator : LogicalOp) (source : Text) : Node :=
  .element "div" []
    [.container (some (.logical source [⟨0, "note", false⟩] operator
      (.identifier "note" [⟨0, "note", false⟩] "note")
      (.markup "<p />" [] (.element "p" [] [] true))))] false

theorem lexable_besideNote_and :
    (besideNote .and "note && <p />").Lexable { props := ["note"] } := by
  simp only [besideNote, Node.Lexable, LexableNodes, Expr.Lexable]
  exact ⟨by decide, List.forall_mem_nil _, .inr ⟨⟨⟨rfl, by decide, by decide⟩,
    .inr ⟨rfl, by decide, List.forall_mem_nil _, .inl trivial⟩⟩, trivial⟩⟩

theorem lexable_besideNote_or :
    (besideNote .or "note || <p />").Lexable { props := ["note"] } := by
  simp only [besideNote, Node.Lexable, LexableNodes, Expr.Lexable]
  exact ⟨by decide, List.forall_mem_nil _, .inr ⟨⟨by decide, by decide⟩, trivial⟩⟩

def notes : Node :=
  .fragment [besideNote .and "note && <p />", besideNote .or "note || <p />"]

theorem countP_isOpenTag_renderRoot_notes :
    ∃ r, renderRoot ["note"] notes = .ok r ∧ r.warnings = [] ∧
      (tokenize r.html).countP isOpenTag + 1 = notes.elements.length := by
  have hlexable : notes.Lexable { props := ["note"] } := by
    rw [notes, Node.Lexable]
    exact ⟨lexable_besideNote_and, lexable_besideNote_or, trivial⟩
  obtain ⟨r, hr, -, hcount⟩ := countP_isOpenTag_renderRoot ["note"] notes rfl hlexable
  have hwarnings : r.warnings = [] := by
    cases hr
    decide
  exact ⟨r, hr, hwarnings, hcount hwarnings⟩

/-- The paragraph that `||` falls back to is neither rendered nor reported. -/
theorem not_rendered_besideNote_or :
    (besideNote .or "note || <p />").Lexable { props := ["note"] } ∧
    ∃ r, renderRoot ["note"] (besideNote .or "note || <p />") = .ok r ∧ r.warnings = [] ∧
      r.html = "<div><%= @note || <p /> %></div>" ∧
      (tokenize r.html).countP isOpenTag = 1 ∧
      (besideNote .or "note || <p />").elements.length = 2 :=
  ⟨lexable_besideNote_or, _, rfl, by decide, by decide, by decide, by decide⟩

end ViewForge.Markup
