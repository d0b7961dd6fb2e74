import ViewForge.Proofs.Erb.TagLayout
import ViewForge.Proofs.Template.Calls

namespace ViewForge.Template

open Text Erb

/-- A template as a tree. An element keeps its tag together with the text it was read from; only
the rewriting makes a `block`. -/
inductive Node where
  | leaf (token : Token)
  | void (tag : Tag) (source : Text)
  | element (tag : Tag) (source : Text) (children : List Node)
  | block (opening : Token) (children : List Node) (closing : Token)

namespace Node

mutual

def tokens : Node → List Token
  | .leaf token => [token]
  | .void _ source => [⟨.openTag, source⟩]
  | .element tag source children =>
    ⟨.openTag, source⟩ :: forestTokens children ++ [closeToken tag.name]
  | .block opening children closing => opening :: forestTokens children ++ [closing]

def forestTokens : List Node → List Token
  | [] => []
  | n :: f => n.tokens ++ forestTokens f

end

def component? (tag : Tag) : Option Text :=
  (tag.get? Markup.componentMarker).bind (·.value)

def callToken (call : Text) : Token := ⟨.output, "<%= " ++ call ++ " %>"⟩

def blockToken (call : Text) : Token := ⟨.output, "<%= " ++ call ++ " do %>"⟩

def endToken : Token := ⟨.code, "<% end %>"⟩

mutual

/-- Every marked element becomes the call that renders its component. The children go into the
block of the call, unless there is nothing but white space in them. -/
def rewrite (namespacePath : Text) : Node → Node
  | .leaf token => .leaf token
  | .void tag source =>
    match component? tag with
    | none => .void tag source
    | some name => .leaf (callToken (componentCall namespacePath name tag.attributes))
  | .element tag source children =>
    match component? tag with
    | none => .element tag source (rewriteForest namespacePath children)
    | some name =>
      let call := componentCall namespacePath name tag.attributes
      let inner := rewriteForest namespacePath children
      if isBlankText (render (forestTokens inner)) then .leaf (callToken call)
      else .block (blockToken call) inner endToken
  | .block opening children closing =>
    .block opening (rewriteForest namespacePath children) closing

def rewriteForest (namespacePath : Text) : List Node → List Node
  | [] => []
  | n :: f => n.rewrite namespacePath :: rewriteForest namespacePath f

end

/-- Trees whose tokens end where they seem to. A marker, if there is one, has a value. -/
inductive WellFormed : Node → Prop
  | leaf {token : Token} : token.Clean → token.kind ≠ .openTag → token.kind ≠ .closeTag →
      WellFormed (.leaf token)
  | void {tag : Tag} {source : Text} : OpenTagText tag source → tag.selfClosing = true →
      (∀ marker ∈ tag.get? Markup.componentMarker, marker.value.isSome) →
      WellFormed (.void tag source)
  | element {tag : Tag} {source : Text} {children : List Node} : OpenTagText tag source →
      tag.selfClosing = false →
      (∀ marker ∈ tag.get? Markup.componentMarker, marker.value.isSome) →
      (∀ n ∈ children, WellFormed n) → WellFormed (.element tag source children)

section Split

variable {name : Text} {tag : Tag} {source : Text} {n : Node} {f : List Node}

theorem splitAtClose_openTag (ht : OpenTagText tag source) (hself : tag.selfClosing = false)
    (name : Text) (depth : Nat) (rest : List Token) :
    splitAtClose name depth (⟨.openTag, source⟩ :: rest) =
      let deeper := splitAtClose name (if tag.name = name then depth + 1 else depth) rest
      (⟨.openTag, source⟩ :: deeper.1, deeper.2) := by
  simp [splitAtClose, ht.parseTag_eq, hself]

section Close

variable (h : isTagName name = true) (rest : List Token)

include h

theorem closeToken_spec :
    (closeToken name).kind = .closeTag ∧ (parseTag (closeToken name).text).name = name :=
  ⟨rfl, parseTag_closeTag h⟩

theorem splitAtClose_closeToken :
    splitAtClose name 1 (closeToken name :: rest) = ([], rest) := by
  simp [splitAtClose, closeToken_spec h]

theorem splitAtClose_closeToken_deeper (depth : Nat) :
    splitAtClose name (depth + 2) (closeToken name :: rest) =
      let after := splitAtClose name (depth + 1) rest
      (closeToken name :: after.1, after.2) := by
  simp [splitAtClose, closeToken_spec h]

theorem splitAtClose_closeToken_of_ne {other : Text} (hne : name ≠ other) (depth : Nat) :
    splitAtClose other depth (closeToken name :: rest) =
      let after := splitAtClose other depth rest
      (closeToken name :: after.1, after.2) := by
  simp [splitAtClose, closeToken_spec h, hne]

end Close

/-- Tokens in which as much is closed as is opened are passed over, at whatever depth. -/
def PassedOver (ts : List Token) : Prop :=
  ∀ name depth rest, splitAtClose name (depth + 1) (ts ++ rest) =
    let after := splitAtClose name (depth + 1) rest
    (ts ++ after.1, after.2)

theorem PassedOver.append {ts us : List Token} (ht : PassedOver ts) (hu : PassedOver us) :
    PassedOver (ts ++ us) := by
  intro name depth rest
  rw [List.append_assoc, ht, hu]
  simp only [List.append_assoc]

theorem passedOver_forest (h : ∀ n ∈ f, PassedOver n.tokens) : PassedOver (forestTokens f) := by
  induction f with
  | nil => exact fun _ _ _ ↦ rfl
  | cons n f ih =>
    rw [List.forall_mem_cons] at h
    exact h.1.append (ih h.2)

theorem WellFormed.passedOver (h : n.WellFormed) : PassedOver n.tokens := by
  induction h with
  | leaf _ hopen hclose =>
    intro name depth rest
    simp [tokens, splitAtClose, hopen, hclose]
  | void ht hself _ =>
    intro name depth rest
    simp [tokens, splitAtClose, ht.parseTag_eq, hself]
  | @element tag source children ht hself _ _ ih =>
    have hname := ht.isTagName
    have hchildren := passedOver_forest ih
    intro name depth rest
    have hshape : (Node.element tag source children).tokens ++ rest =
        ⟨.openTag, source⟩ :: (forestTokens children ++ closeToken tag.name :: rest) := by
      simp [tokens]
    rw [hshape, splitAtClose_openTag ht hself]
    by_cases heq : tag.name = name
    · rw [if_pos heq, hchildren, ← heq, splitAtClose_closeToken_deeper hname]
      simp [tokens]
    · rw [if_neg heq, hchildren, splitAtClose_closeToken_of_ne hname rest heq]
      simp [tokens]

end Split

section References

variable {namespacePath : Text} {tag : Tag} {source : Text} {n : Node} {f : List Node}

theorem renderReferences_kept {token : Token} (rest : List Token)
    (h : token.kind = .openTag → (parseTag token.text).get? Markup.componentMarker = none) :
    renderReferences namespacePath (token :: rest) =
      token :: renderReferences namespacePath rest := by
  rw [renderReferences]
  dsimp only
  split
  next hopen hmarker =>
    rw [h (by simpa [isOpenTag] using hopen)] at hmarker
    cases hmarker
  next => rfl

/-- The tokens of a forest, and then others, are rewritten as the forest is and then the others. -/
def RewrittenAs (namespacePath : Text) (ts us : List Token) : Prop :=
  ∀ rest, renderReferences namespacePath (ts ++ rest) =
    us ++ renderReferences namespacePath rest

theorem rewrittenAs_forest
    (h : ∀ n ∈ f, RewrittenAs namespacePath n.tokens (n.rewrite namespacePath).tokens) :
    RewrittenAs namespacePath (forestTokens f) (forestTokens (rewriteForest namespacePath f)) := by
  induction f with
  | nil => exact fun _ ↦ rfl
  | cons n f ih =>
    rw [List.forall_mem_cons] at h
    intro rest
    rw [forestTokens, List.append_assoc, h.1, ih h.2, rewriteForest, forestTokens,
      List.append_assoc]

section Marked

variable (ht : OpenTagText tag source)

include ht

theorem renderReferences_unmarked (rest : List Token) (h : component? tag = none)
    (hmarker : ∀ marker ∈ tag.get? Markup.componentMarker, marker.value.isSome) :
    renderReferences namespacePath (⟨.openTag, source⟩ :: rest) =
      ⟨.openTag, source⟩ :: renderReferences namespacePath rest := by
  refine renderReferences_kept rest fun _ ↦ ?_
  rw [ht.parseTag_eq]
  cases hget : tag.get? Markup.componentMarker with
  | none => rfl
  | some marker =>
    have hvalue := hmarker marker hget
    rw [component?, hget, Option.bind_some] at h
    rw [h] at hvalue
    cases hvalue

theorem renderReferences_marked (rest : List Token) {name : Text} (h : component? tag = some name) :
    renderReferences namespacePath (⟨.openTag, source⟩ :: rest) =
      let call := componentCall namespacePath name tag.attributes
      if tag.selfClosing then callToken call :: renderReferences namespacePath rest
      else
        let inner := renderReferences namespacePath (splitAtClose tag.name 1 rest).1
        let after := renderReferences namespacePath (splitAtClose tag.name 1 rest).2
        if isBlankText (render inner) then callToken call :: after
        else blockToken call :: inner ++ endToken :: after := by
  obtain ⟨marker, hget, hvalue⟩ := Option.bind_eq_some_iff.1 h
  rw [renderReferences]
  simp only [ht.parseTag_eq, hget, hvalue, isOpenTag, beq_self_eq_true, renderCall_eq]
  rfl

end Marked

theorem WellFormed.rewrittenAs (h : n.WellFormed) :
    RewrittenAs namespacePath n.tokens (n.rewrite namespacePath).tokens := by
  induction h with
  | leaf _ hopen _ => exact fun rest ↦ renderReferences_kept rest fun h ↦ absurd h hopen
  | @void tag source ht hself hmarker =>
    intro rest
    rw [rewrite]
    cases hname : component? tag with
    | none => exact renderReferences_unmarked ht rest hname hmarker
    | some name =>
      refine (renderReferences_marked ht rest hname).trans ?_
      rw [if_pos hself]
      rfl
  | @element tag source children ht hself hmarker hchildren ih =>
    have hinner := rewrittenAs_forest ih
    intro rest
    have hshape : (Node.element tag source children).tokens ++ rest =
        ⟨.openTag, source⟩ :: (forestTokens children ++ closeToken tag.name :: rest) := by
      simp [tokens]
    have hsplit : splitAtClose tag.name 1 (forestTokens children ++ closeToken tag.name :: rest) =
        (forestTokens children, rest) := by
      have hpass := passedOver_forest (fun n hn ↦ (hchildren n hn).passedOver) tag.name 0
        (closeToken tag.name :: rest)
      rw [Nat.zero_add, splitAtClose_closeToken ht.isTagName] at hpass
      simpa using hpass
    rw [hshape, rewrite]
    cases hcomponent : component? tag with
    | none =>
      have hclose : (closeToken tag.name).kind ≠ .openTag := nofun
      rw [renderReferences_unmarked ht _ hcomponent hmarker, hinner,
        renderReferences_kept rest fun h ↦ absurd h hclose]
      simp [tokens]
    | some name =>
      have hforest : renderReferences namespacePath (forestTokens children) =
          forestTokens (rewriteForest namespacePath children) := by
        simpa [renderReferences] using hinner []
      rw [renderReferences_marked ht _ hcomponent, hsplit, if_neg (by simp [hself])]
      simp only [hforest]
      split
      · rfl
      · simp [tokens]

end References

/-- No tag that is left is marked, whatever tokens there were. -/
theorem get?_componentMarker_of_mem (namespacePath : Text) (ts : List Token) :
    ∀ k ∈ renderReferences namespacePath ts, k.kind = .openTag →
      (parseTag k.text).get? Markup.componentMarker = none := by
  fun_induction renderReferences namespacePath ts with
  | case1 => exact nofun
  | case2 _ _ _ _ _ _ _ _ ih => exact List.forall_mem_cons.2 ⟨nofun, ih⟩
  | case3 _ _ _ _ _ _ _ _ _ _ _ _ ih => exact List.forall_mem_cons.2 ⟨nofun, ih⟩
  | case4 _ _ _ _ _ _ _ _ _ _ _ ihinner ihafter =>
    refine List.forall_mem_cons.2 ⟨nofun, List.forall_mem_append.2 ⟨ihinner, ?_⟩⟩
    exact List.forall_mem_cons.2 ⟨nofun, ihafter⟩
  | case5 token rest tag hkept ih =>
    refine List.forall_mem_cons.2 ⟨fun hopen ↦ ?_, ih⟩
    rw [Option.eq_none_iff_forall_not_mem]
    exact fun marker hmarker ↦ hkept marker (by rw [isOpenTag, hopen]; rfl) hmarker

theorem clean_forestTokens {f : List Node} (h : ∀ n ∈ f, ∀ k ∈ n.tokens, k.Clean) :
    ∀ k ∈ forestTokens f, k.Clean := by
  induction f with
  | nil => exact nofun
  | cons n f ih =>
    rw [List.forall_mem_cons] at h
    exact List.forall_mem_append.2 ⟨h.1, ih h.2⟩

theorem WellFormed.clean {n : Node} (h : n.WellFormed) : ∀ k ∈ n.tokens, k.Clean := by
  induction h with
  | leaf hclean _ _ => exact List.forall_mem_singleton.2 hclean
  | void ht _ _ => exact List.forall_mem_singleton.2 ht.clean
  | @element tag source children ht _ _ _ ih =>
    refine List.forall_mem_cons.2 ⟨ht.clean, List.forall_mem_append.2 ⟨clean_forestTokens ih, ?_⟩⟩
    exact List.forall_mem_singleton.2 (.closeTag tag.name ht.isTagName)

/-- Calls take the place of marked elements in the tokens of a forest just as they do in the
forest, and no token list is left with a marked tag. -/
theorem renderReferences_forest (namespaceName : Text) :
    (∀ f : List Node, (∀ n ∈ f, n.WellFormed) →
      renderReferences (Naming.constantPath namespaceName) (forestTokens f) =
        forestTokens (rewriteForest (Naming.constantPath namespaceName) f) ∧
      ((forestTokens f).IsChain Token.Separate →
        renderComponentReferences namespaceName (render (forestTokens f)) =
          render (forestTokens (rewriteForest (Naming.constantPath namespaceName) f)))) ∧
    ∀ ts : List Token, ∀ k ∈ renderReferences (Naming.constantPath namespaceName) ts,
      k.kind = .openTag → (parseTag k.text).get? Markup.componentMarker = none := by
  refine ⟨fun f hf ↦ ?_, get?_componentMarker_of_mem _⟩
  have htokens : renderReferences (Naming.constantPath namespaceName) (forestTokens f) =
      forestTokens (rewriteForest (Naming.constantPath namespaceName) f) := by
    simpa [renderReferences] using rewrittenAs_forest (fun n hn ↦ (hf n hn).rewrittenAs) []
  have hclean := clean_forestTokens fun n hn ↦ (hf n hn).clean
  refine ⟨htokens, fun hsep ↦ ?_⟩
  rw [renderComponentReferences, tokenize_eq_of_render rfl hclean hsep, htokens]

def cardTag (component : Option Text) (others : List TagAttribute) (selfClosing : Bool) : Tag where
  name := "card"
  attributes :=
    (component.toList.map fun c ↦ { name := Markup.componentMarker, value := some c }) ++ others
  selfClosing := selfClosing

def cardAttributes : List TagAttribute :=
  [{ name := "open" }, { name := "class", value := some "a &#38; b" },
    { name := "data-id", value := some "<%= x %>" },
    { name := "title", value := some "No <%= n %>" },
    { name := "<%= render_attributes(rest) %>" }, { name := "<% skipped %>" }]

/-- A card with a native element of the same name in it, and a card in that. -/
def nestedCards : List Node :=
  [.element (cardTag "Card" cardAttributes false) (cardTag "Card" cardAttributes false).render
    [.leaf ⟨.text, "a"⟩,
      .element (cardTag none cardAttributes false) (cardTag none cardAttributes false).render
        [.void (cardTag "Icon" [] true) (cardTag "Icon" [] true).render],
      .element (cardTag "Empty" [] false) (cardTag "Empty" [] false).render
        [.leaf ⟨.text, " "⟩]]]

theorem cleanAttribute_cardAttributes : ∀ a ∈ cardAttributes, CleanAttribute a := by
  have hletters (t : Text) {v : Text} (ht : Markup.isQuotable t = true) (hv : CleanValue '"' v) :
      CleanValue '"' (t ++ v) := by
    induction t with
    | nil => exact hv
    | cons c t ih =>
      rw [Markup.isQuotable, List.all_cons, Bool.and_eq_true, Bool.and_eq_true, bne_iff_ne,
        bne_iff_ne] at ht
      exact .char ht.1.1 (not_startsDirective_of_ne _ ht.1.2) (ih ht.2)
  have hx : CleanValue '"' "<%= x %>" := .directive (.output " x " ⟨by decide, by decide⟩) .nil
  have hn : CleanValue '"' "<%= n %>" := .directive (.output " n " ⟨by decide, by decide⟩) .nil
  have hrest : CleanCode " render_attributes(rest) " := ⟨by decide, by decide⟩
  simp only [cardAttributes, List.forall_mem_cons]
  exact ⟨.bare (by rfl), .valued (by rfl) rfl (hletters "a &#38; b" (by decide) .nil),
    .valued (by rfl) rfl hx, .valued (by rfl) rfl (hletters "No " (by decide) hn),
    .directive (.output _ hrest),
    .directive (.code " skipped " ⟨by decide, by decide⟩ (by decide) (by decide)),
    List.forall_mem_nil _⟩

theorem renderReferences_forest_nestedCards :
    renderComponentReferences "ui" (render (forestTokens nestedCards)) =
      "<%= render Ui::CardComponent.new(open: true, html_class: \"a & b\", " ++
        "\"data-id\": x, title: \"No #\x7bn\x7d\", **rest) do %>" ++ "a" ++
        "<card open class=\"a &#38; b\" data-id=\"<%= x %>\" " ++
        "title=\"No <%= n %>\" <%= render_attributes(rest) %> <% skipped %>>" ++
        "<%= render Ui::IconComponent.new %>" ++ "</card>" ++
        "<%= render Ui::EmptyComponent.new %>" ++ "<% end %>" := by
  have htag (component : Option Text) {others : List TagAttribute} (selfClosing : Bool)
      (hname : ∀ c ∈ component, Markup.isQuotable c = true)
      (hothers : ∀ a ∈ others, CleanAttribute a) :
      OpenTagText (cardTag component others selfClosing)
        (cardTag component others selfClosing).render := by
    refine openTagText_render (by rfl) rfl (List.forall_mem_append.2 ⟨?_, hothers⟩)
    cases component with
    | none => exact nofun
    | some c =>
      have hvalue := Markup.cleanValue_of_isQuotable (hname c rfl)
      exact List.forall_mem_singleton.2 (.valued (by rfl) (by rfl) hvalue)
  have hmarker (component : Option Text) {others : List TagAttribute} (selfClosing : Bool)
      (hothers : ∀ a ∈ others, a.name ≠ Markup.componentMarker) :
      ∀ marker ∈ (cardTag component others selfClosing).get? Markup.componentMarker,
        marker.value.isSome := by
    cases component with
    | none =>
      have hget : (cardTag none others selfClosing).get? Markup.componentMarker = none :=
        List.find?_eq_none.2 fun a ha h ↦ hothers a ha (beq_iff_eq.1 h)
      rw [hget]
      exact nofun
    | some c =>
      rintro _ ⟨⟩
      rfl
  have hcard := cleanAttribute_cardAttributes
  have hothers : ∀ a ∈ cardAttributes, a.name ≠ Markup.componentMarker := by decide
  have hforest : ∀ n ∈ nestedCards, n.WellFormed := by
    have hicon : WellFormed (.void (cardTag "Icon" [] true) (cardTag "Icon" [] true).render) :=
      .void (htag "Icon" true (by decide) nofun) rfl (hmarker "Icon" true nofun)
    have hnative : WellFormed (.element (cardTag none cardAttributes false)
        (cardTag none cardAttributes false).render
        [.void (cardTag "Icon" [] true) (cardTag "Icon" [] true).render]) :=
      .element (htag none false nofun hcard) rfl (hmarker none false hothers)
        (List.forall_mem_singleton.2 hicon)
    have hempty : WellFormed (.element (cardTag "Empty" [] false)
        (cardTag "Empty" [] false).render [.leaf ⟨.text, " "⟩]) :=
      .element (htag "Empty" false (by decide) nofun) rfl (hmarker "Empty" false nofun)
        (List.forall_mem_singleton.2 (.leaf (.text (by decide) (by decide)) nofun nofun))
    have ha : WellFormed (.leaf ⟨.text, "a"⟩) := .leaf (.text (by decide) (by decide)) nofun nofun
    refine List.forall_mem_singleton.2 (.element (htag "Card" false (by decide) hcard) rfl
      (hmarker "Card" false hothers) ?_)
    simp only [List.forall_mem_cons]
    exact ⟨ha, hnative, hempty, nofun⟩
  have hsep : (forestTokens nestedCards).IsChain Token.Separate := by
    simp [nestedCards, forestTokens, tokens, closeToken, Token.Separate]
  have htokens : forestTokens (rewriteForest (Naming.constantPath "ui") nestedCards) =
      [⟨.output, "<%= render Ui::CardComponent.new(open: true, html_class: \"a & b\", " ++
        "\"data-id\": x, title: \"No #\x7bn\x7d\", **rest) do %>"⟩,
      ⟨.text, "a"⟩,
      ⟨.openTag, "<card open class=\"a &#38; b\" data-id=\"<%= x %>\" " ++
        "title=\"No <%= n %>\" <%= render_attributes(rest) %> <% skipped %>>"⟩,
      ⟨.output, "<%= render Ui::IconComponent.new %>"⟩, ⟨.closeTag, "</card>"⟩,
      ⟨.output, "<%= render Ui::EmptyComponent.new %>"⟩, ⟨.code, "<% end %>"⟩] := by
    decide +kernel
  rw [((renderReferences_forest "ui").1 nestedCards hforest).2 hsep, htokens, render]
  simp only [List.flatMap_cons, List.flatMap_nil, List.append_nil, List.append_assoc]

end Node

end ViewForge.Template
