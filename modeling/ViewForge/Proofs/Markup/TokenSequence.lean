import ViewForge.Proofs.Markup.Attributes

namespace ViewForge.Markup

open Text Erb

def markerAttribute : Option Text → Text
  | some name => quotedAttribute componentMarker name
  | none => []

def elementBlocks (scope : Scope) (tag : Text) (attributes : List Attribute)
    (children : List Block) (selfClosing : Bool) : List Block :=
  let (html, reference) := resolveTag tag
  let r := renderAttributes scope reference.isSome attributes
  let written := markerAttribute reference ++ r.parts
  r.warnings.map .placeholder ++
    [if selfClosing then .selfClosing html written else .element html written children]

/-- A conditional without an `else` if there is nothing to show there. -/
def conditionalBlock (test : Text) (yes no : List Block) : Block :=
  if (render (blocksTokens no)).isEmpty then .guard test yes else .choice test yes no

def loopItem (params : List Param) : Text :=
  orElse ((params.head?.bind (·.name)).getD []) "item"

def loopIndex (params : List Param) : Option Text :=
  match (params[1]?.bind (·.name)).getD [] with
  | [] => none
  | index => some index

def literalBlocks (scope : Scope) (e : Expr) (source : Text) : LiteralKind → List Block
  | .null | .undefined | .boolean _ => []
  | .string => [.text (escape (unquoted source))]
  | .number => [.text source]
  | .template | .regex => [.output (e.code scope)]

def blockBodyReason (source : Text) : Text :=
  "Block-bodied callback in list rendering is not supported: " ++ excerpt source

def inlineFunctionReason (source : Text) : Text :=
  "Inline function cannot be rendered as markup: " ++ excerpt source

mutual

def Node.blocks (scope : Scope) : Node → List Block
  | .element tag attributes children selfClosing =>
    elementBlocks scope tag attributes (if selfClosing then [] else nodesBlocks scope children)
      selfClosing
  | .fragment children => nodesBlocks scope children
  | .text value => [.text value]
  | .container none => []
  | .container (some e) => e.blocks scope
  | .unsupported kind _ => [.placeholder ("Unsupported child node: " ++ kind)]
  | .misplaced _ => []

def nodesBlocks (scope : Scope) : List Node → List Block
  | [] => []
  | n :: r => n.blocks scope ++ nodesBlocks scope r

def Expr.blocks (scope : Scope) (e : Expr) : List Block :=
  match e with
  | .conditional _ _ test consequent alternate =>
    [conditionalBlock (test.code scope)
      (if consequent.isEmptyBranch then [] else consequent.blocks scope)
      (if alternate.isEmptyBranch then [] else alternate.blocks scope)]
  | .logical _ _ .and left right =>
    [.guard (left.code scope) (if right.isEmptyBranch then [] else right.blocks scope)]
  | .call source _ _ [.function _ _ params body _] (some ['m', 'a', 'p']) (some receiver) =>
    match body with
    | none => [.placeholder (blockBodyReason source)]
    | some b =>
      [.loop (receiver.code scope) (loopItem params) (loopIndex params)
        (if b.isEmptyBranch then []
        else b.blocks (scope.bind (loopItem params :: (loopIndex params).toList)))]
  | .markup _ _ node => if node.isRoot then node.blocks scope else []
  | .literal source _ kind => literalBlocks scope e source kind
  | .function source .. => [.placeholder (inlineFunctionReason source)]
  | .misplaced _ => []
  | _ => [.output (e.code scope)]

end

def LexableLiteral (scope : Scope) (e : Expr) (source : Text) : LiteralKind → Prop
  | .null | .undefined | .boolean _ | .string => True
  | .number => '<' ∉ source
  | .template | .regex => CleanCode (e.code scope)

mutual

/-- Markup that is cut up as it is put together: every name, numeral, code and reason that is
written can stand where it is written, and every node is of a class that its place admits. -/
def Node.Lexable (scope : Scope) : Node → Prop
  | .element tag attributes children selfClosing =>
    (splitOn '.' tag).all isMarkupName = true ∧
      (∀ a ∈ attributes, a.Lexable scope (resolveTag tag).2.isSome) ∧
      (selfClosing = true ∨ LexableNodes scope children)
  | .fragment children => LexableNodes scope children
  | .text value => '<' ∉ value
  | .container none => True
  | .container (some e) => e.Lexable scope
  | .unsupported kind _ => CleanReason ("Unsupported child node: " ++ kind)
  | .misplaced _ => False

def LexableNodes (scope : Scope) : List Node → Prop
  | [] => True
  | n :: r => n.Lexable scope ∧ LexableNodes scope r

def Expr.Lexable (scope : Scope) (e : Expr) : Prop :=
  match e with
  | .conditional _ _ test consequent alternate =>
    test.LexableCode scope ∧
      (consequent.isEmptyBranch = true ∨ consequent.Lexable scope) ∧
      (alternate.isEmptyBranch = true ∨ alternate.Lexable scope)
  | .logical _ _ .and left right =>
    left.LexableCode scope ∧ (right.isEmptyBranch = true ∨ right.Lexable scope)
  | .call source _ _ [.function _ _ params body _] (some ['m', 'a', 'p']) (some receiver) =>
    match body with
    | none => CleanReason (blockBodyReason source)
    | some b =>
      loopMisfits receiver params = [] ∧ CleanCode (receiver.code scope) ∧
        isVariable (loopItem params) = true ∧
        (∀ i ∈ loopIndex params, isVariable i = true) ∧
        (b.isEmptyBranch = true ∨
          b.Lexable (scope.bind (loopItem params :: (loopIndex params).toList)))
  | .markup _ _ node => node.isRoot = true ∧ node.Lexable scope
  | .literal source _ kind => LexableLiteral scope e source kind
  | .function source .. => CleanReason (inlineFunctionReason source)
  | .misplaced _ => False
  | _ => CleanCode (e.code scope)

end

structure Rendered.Draws (r : Rendered) (bs : List Block) : Prop where
  html : r.html = render (blocksTokens bs)
  misfits : r.misfits = []
  clean : ∀ b ∈ bs, b.Clean

theorem render_append (ts us : List Token) : render (ts ++ us) = render ts ++ render us :=
  List.flatMap_append

theorem render_enclosed (k k' : Token) (ts : List Token) :
    render (k :: ts ++ [k']) = k.text ++ render ts ++ k'.text := by
  simp [render]

theorem render_singleton (b : Block) : render (blocksTokens [b]) = render b.tokens := by
  rw [blocksTokens, blocksTokens, List.append_nil]

namespace Rendered.Draws

variable {r r' : Rendered} {bs bs' : List Block}

theorem nil : Draws {} [] := ⟨rfl, rfl, nofun⟩

theorem congr (h : r.Draws bs) (hhtml : r'.html = r.html) (hmisfits : r'.misfits = r.misfits) :
    r'.Draws bs :=
  ⟨hhtml.trans h.html, hmisfits.trans h.misfits, h.clean⟩

theorem append (h : r.Draws bs) (h' : r'.Draws bs') : (r ++ r').Draws (bs ++ bs') where
  html := by
    change r.html ++ r'.html = _
    rw [h.html, h'.html, blocksTokens_append, render_append]
  misfits := by
    change r.misfits ++ r'.misfits = []
    rw [h.misfits, h'.misfits, List.append_nil]
  clean := List.forall_mem_append.2 ⟨h.clean, h'.clean⟩

theorem lacking (h : r.Draws bs) {misfits : List Misfit} (hnone : misfits = []) :
    (r.lacking misfits).Draws bs := by
  refine h.congr rfl ?_
  rw [hnone]
  exact List.append_nil _

theorem output {code : Text} (h : CleanCode code) :
    Draws { html := outputDirective code } [.output code] where
  html := (List.append_nil _).symm
  misfits := rfl
  clean := List.forall_mem_singleton.2 (.output h)

theorem text {t : Text} (h : '<' ∉ t) : Draws { html := t } [.text t] where
  html := (List.append_nil _).symm
  misfits := rfl
  clean := List.forall_mem_singleton.2 (.text h)

theorem failure {reason : Text} (h : CleanReason reason) :
    (Rendered.failure reason).Draws [.placeholder reason] where
  html := (List.append_nil _).symm
  misfits := rfl
  clean := List.forall_mem_singleton.2 (.placeholder h)

theorem branch {e : Expr} {scope : Scope}
    (h : e.isEmptyBranch = true ∨ (e.render scope).Draws (e.blocks scope)) :
    (if e.isEmptyBranch then {} else e.render scope : Rendered).Draws
      (if e.isEmptyBranch then [] else e.blocks scope) := by
  split
  · exact nil
  next hfull => exact h.resolve_left hfull

theorem guard {test : Text} (ht : CleanCode test) (h : r.Draws bs) :
    (r.wrap (codeDirective ("if " ++ test)) endDirective).Draws [.guard test bs] where
  html := by
    rw [render_singleton, Block.tokens, render_enclosed, ← h.html]
    rfl
  misfits := h.misfits
  clean := List.forall_mem_singleton.2 (.guard ht h.clean)

theorem loop {receiver item : Text} {index : Option Text} (hreceiver : CleanCode receiver)
    (hitem : isVariable item = true) (hindex : ∀ i ∈ index, isVariable i = true)
    (h : r.Draws bs) :
    (r.wrap (codeDirective (loopCode receiver item index)) endDirective).Draws
      [.loop receiver item index bs] where
  html := by
    rw [render_singleton, Block.tokens, render_enclosed, ← h.html]
    rfl
  misfits := h.misfits
  clean := List.forall_mem_singleton.2 (.loop hreceiver hitem hindex h.clean)

theorem conditional {test : Text} (ht : CleanCode test) (h : r.Draws bs) (h' : r'.Draws bs') :
    (renderConditional test r r').Draws [conditionalBlock test bs bs'] where
  html := by
    change codeDirective ("if " ++ test) ++ r.html ++ [] ++
      ((if r'.html.isEmpty then [] else "<% else %>") ++ r'.html ++ []) ++ endDirective = _
    rw [conditionalBlock, render_singleton, ← h'.html]
    split
    next hempty =>
      rw [Block.tokens, render_enclosed, ← h.html, List.isEmpty_iff.1 hempty]
      simp only [List.append_nil]
      rfl
    next =>
      have helse : render (codeToken "else" :: blocksTokens bs') = "<% else %>" ++ r'.html := by
        rw [h'.html]
        rfl
      rw [Block.tokens, List.cons_append, render_enclosed, render_append, ← h.html, helse]
      simp only [List.append_nil, List.append_assoc]
      rfl
  misfits := by
    change r.misfits ++ r'.misfits ++ [] = []
    rw [h.misfits, h'.misfits]
    rfl
  clean := by
    rw [List.forall_mem_singleton, conditionalBlock]
    split
    · exact .guard ht h.clean
    · exact .choice ht h.clean h'.clean

theorem element {name a : Text} (hn : isTagName name = true) (ha : TagAttributes a)
    (h : r.Draws bs) :
    (r.wrap ("<" ++ name ++ a ++ ">") ("</" ++ name ++ ">")).Draws [.element name a bs] where
  html := by
    rw [render_singleton, Block.tokens, render_enclosed, ← h.html]
    rfl
  misfits := h.misfits
  clean := List.forall_mem_singleton.2 (.element hn ha h.clean)

theorem selfClosing {name a : Text} (hn : isTagName name = true) (ha : TagAttributes a) :
    Draws { html := "<" ++ name ++ a ++ " />" } [.selfClosing name a] where
  html := (List.append_nil _).symm
  misfits := rfl
  clean := List.forall_mem_singleton.2 (.selfClosing hn ha)

theorem placeholders {reasons : List Text} (h : ∀ reason ∈ reasons, CleanReason reason) :
    Draws { html := reasons.flatMap Placeholder.comment } (reasons.map .placeholder) := by
  induction reasons with
  | nil => exact nil
  | cons reason reasons ih =>
    rw [List.forall_mem_cons] at h
    exact ((failure h.1).append (ih h.2)).congr rfl rfl

end Rendered.Draws

theorem tagAttributes_marker {reference : Option Text}
    (h : ∀ name ∈ reference, isMarkupName name = true) :
    TagAttributes (markerAttribute reference) := by
  cases reference with
  | none => exact .nil
  | some name =>
    have hname := isQuotable_of_all_isMarkupNamePart (all_of_isMarkupName (h name rfl))
    exact tagAttributes_quoted (by decide) (cleanValue_of_isQuotable hname)

theorem draws_renderElement {scope : Scope} {tag : Text} {attributes : List Attribute}
    {r : Rendered} {bs : List Block} (selfClosing : Bool)
    (htag : (splitOn '.' tag).all isMarkupName = true)
    (ha : ∀ a ∈ attributes, a.Lexable scope (resolveTag tag).2.isSome) (h : r.Draws bs) :
    (renderElement scope tag attributes r selfClosing).Draws
      (elementBlocks scope tag attributes bs selfClosing) := by
  have hnames := isMarkupName_resolveTag htag
  have hr := clean_renderAttributes ha
  rw [renderElement, elementBlocks]
  generalize resolveTag tag = resolved at hnames hr
  obtain ⟨html, reference⟩ := resolved
  have hwritten := (tagAttributes_marker hnames.2).append hr.parts
  have hname := isTagName_of_isMarkupName hnames.1
  have hplaceholders := Rendered.Draws.placeholders hr.warnings
  cases selfClosing with
  | true =>
    refine (hplaceholders.append (.selfClosing hname hwritten)).congr ?_ ?_
    · change _ ++ "<" ++ html ++ markerAttribute reference ++ _ ++ " />" = _ ++ _
      rw [hr.leading]
      simp only [List.append_assoc]
    · change _ ++ [] = []
      rw [hr.misfits]
      rfl
  | false =>
    refine (hplaceholders.append (h.element hname hwritten)).congr ?_ ?_
    · change _ ++ "<" ++ html ++ markerAttribute reference ++ _ ++ ">" ++ r.html ++ _ =
        _ ++ ("<" ++ html ++ (markerAttribute reference ++ _) ++ ">" ++ r.html ++ _)
      rw [hr.leading]
      simp only [List.append_assoc]
    · change _ ++ r.misfits = r.misfits
      rw [hr.misfits]
      rfl

theorem loopHead_eq (receiver : Text) (params : List Param) :
    ∃ warnings, loopHead receiver params = (loopItem params :: (loopIndex params).toList,
      codeDirective (loopCode receiver (loopItem params) (loopIndex params)), warnings) := by
  unfold loopHead loopIndex loopItem
  cases (params[1]?.bind (·.name)).getD [] with
  | nil => exact ⟨_, rfl⟩
  | cons c index => exact ⟨_, rfl⟩

theorem not_mem_escape (t : Text) : '<' ∉ escape t := by
  intro hmem
  obtain ⟨c, -, hc⟩ := List.mem_flatMap.1 hmem
  unfold escapeChar at hc
  split at hc
  · exact absurd hc (by decide)
  · split at hc
    · exact absurd hc (by decide)
    next hlt =>
      split at hc
      · exact absurd hc (by decide)
      · exact hlt (beq_iff_eq.2 (List.mem_singleton.1 hc).symm)

theorem draws_renderLiteral {scope : Scope} {e : Expr} {source : Text} {kind : LiteralKind}
    (h : LexableLiteral scope e source kind) :
    (renderLiteral scope e source kind).Draws (literalBlocks scope e source kind) := by
  cases kind with
  | string => exact .text (not_mem_escape _)
  | number => exact .text h
  | template => exact .output h
  | regex => exact .output h
  | boolean b => exact .nil
  | null => exact .nil
  | undefined => exact .nil

/-- The rendering of markup is the text of its blocks, by induction over nodes, expressions and
lists of nodes as the renderer goes through them. -/
theorem draws_render :
    (∀ scope (n : Node), n.Lexable scope → (n.render scope).Draws (n.blocks scope)) ∧
    (∀ scope (e : Expr), e.Lexable scope → (e.render scope).Draws (e.blocks scope)) ∧
    (∀ scope ns, LexableNodes scope ns → (renderNodes scope ns).Draws (nodesBlocks scope ns)) := by
  apply Node.render.mutual_induct
    (fun scope n ↦ n.Lexable scope → (n.render scope).Draws (n.blocks scope))
    (fun scope e ↦ e.Lexable scope → (e.render scope).Draws (e.blocks scope))
    (fun scope ns ↦ LexableNodes scope ns → (renderNodes scope ns).Draws (nodesBlocks scope ns))
  -- Expressions, the last case being those that are written as they stand.
  case case1 =>
    intro scope source refs test consequent alternate ihc iha h
    rw [Expr.Lexable] at h
    rw [Expr.render, Expr.blocks]
    obtain ⟨htest, hc, ha⟩ := h
    exact .lacking (.conditional htest.2 (.branch (hc.imp_right ihc)) (.branch (ha.imp_right iha)))
      htest.1
  case case2 =>
    intro scope source refs left right ih h
    rw [Expr.Lexable] at h
    rw [Expr.render, Expr.blocks]
    exact (Rendered.Draws.guard h.1.2 (.branch (h.2.imp_right ih))).lacking h.1.1
  case case3 =>
    intro scope source refs callee source' refs' params block receiver h
    rw [Expr.Lexable] at h
    rw [Expr.render, Expr.blocks]
    exact .failure h
  case case4 =>
    intro scope _ _ _ _ _ params _ receiver b bound head warnings hhead ih h
    rw [Expr.Lexable] at h
    obtain ⟨hplaced, hreceiver, hitem, hindex, hb⟩ := h
    obtain ⟨loopWarnings, heq⟩ := loopHead_eq (receiver.code scope) params
    rw [heq, Prod.mk.injEq, Prod.mk.injEq] at hhead
    obtain ⟨rfl, rfl, rfl⟩ := hhead
    rw [Expr.render, Expr.blocks, heq]
    refine (Rendered.Draws.loop hreceiver hitem hindex (.branch (hb.imp_right ih))).congr rfl ?_
    rw [hplaced]
    rfl
  case case5 =>
    intro scope source refs node hroot ih h
    rw [Expr.Lexable] at h
    rw [Expr.render, Expr.blocks, if_pos hroot, if_pos hroot]
    exact ih h.2
  case case6 =>
    intro scope source refs node hroot h
    rw [Expr.Lexable] at h
    exact absurd h.1 hroot
  case case7 =>
    intro scope source refs kind h
    rw [Expr.Lexable] at h
    rw [Expr.render, Expr.blocks]
    exact draws_renderLiteral h
  case case8 =>
    intro scope source refs params body block h
    rw [Expr.Lexable] at h
    rw [Expr.render, Expr.blocks]
    exact .failure h
  case case9 =>
    intro scope kind h
    rw [Expr.Lexable] at h
    exact h.elim
  case case10 =>
    intro e scope h₁ h₂ h₃ h₄ h₅ h₆ h₇ h
    rw [Expr.Lexable] at h <;> try assumption
    rw [Expr.render, Expr.blocks] <;> try assumption
    exact .output h
  -- Nodes, then lists of nodes.
  case case11 =>
    intro scope tag attributes children selfClosing ih h
    rw [Node.Lexable] at h
    obtain ⟨htag, ha, hchildren⟩ := h
    rw [Node.render, Node.blocks]
    refine draws_renderElement selfClosing htag ha ?_
    split
    · exact .nil
    next hclosing => exact ih (hchildren.resolve_left hclosing)
  case case12 =>
    intro scope children ih h
    rw [Node.Lexable] at h
    rw [Node.render, Node.blocks]
    exact ih h
  case case13 =>
    intro scope value h
    rw [Node.Lexable] at h
    rw [Node.render, Node.blocks]
    exact .text h
  case case14 =>
    intro scope h
    rw [Node.render, Node.blocks]
    exact .nil
  case case15 =>
    intro scope e ih h
    rw [Node.Lexable] at h
    rw [Node.render, Node.blocks]
    exact ih h
  case case16 =>
    intro scope kind source h
    rw [Node.Lexable] at h
    rw [Node.render, Node.blocks]
    exact .failure h
  case case17 =>
    intro scope kind h
    rw [Node.Lexable] at h
    exact h.elim
  case case18 =>
    intro scope h
    rw [renderNodes, nodesBlocks]
    exact .nil
  case case19 =>
    intro scope n r ihn ihr h
    rw [LexableNodes] at h
    rw [renderNodes, nodesBlocks]
    exact (ihn h.1).append (ihr h.2)

/-- A root renders without misfits, what it renders to is cut into the tokens of its tree, and
these are well nested. -/
theorem tokenize_renderRoot (props : List Text) (root : Node) (hroot : root.isRoot = true)
    (h : root.Lexable { props }) :
    ∃ r, renderRoot props root = .ok r ∧
      tokenize r.html = joinTexts (blocksTokens (root.blocks { props })) ∧
      WellNested (tokenize r.html) := by
  have hdraws := draws_render.1 { props } root h
  have htokens : tokenize (root.render { props }).html =
      joinTexts (blocksTokens (root.blocks { props })) := by
    rw [hdraws.html, tokenize_blocks hdraws.clean]
  refine ⟨root.render { props }, ?_, htokens, ?_⟩
  · simp only [renderRoot, if_pos hroot, hdraws.misfits]
  · rw [htokens]
    exact wellNested_blocks hdraws.clean

/-- A list with an attribute to report, a loop around a conditional, a guarded text that looks
like a tag, and a component. -/
def itemList : Node :=
  .element "ul"
    [.named "className" (some (.expression (some (.identifier "style" [] "style")))),
      .named "onClick" (some (.expression (some (.identifier "select" [] "select")))),
      .named "data" (some (.unsupported "jsx--element" []))]
    [.text "Items: ",
      .container (some (.call [] [] (.member "items.map" [] (some "items"))
        [.function [] [] [⟨some "item", "item", none⟩, ⟨some "i", "i", none⟩]
          (some (.conditional [] [] (.member "item.done" [⟨0, "item", false⟩] (some "item"))
            (.markup [] [] (.element "li" [.named "key" none] [.text "done"] false))
            (.literal "null" [] .null))) none]
        (some ['m', 'a', 'p']) (some (.identifier "items" [] "items")))),
      .container (some (.logical [] [] .and (.identifier "empty" [] "empty")
        (.literal "'<none>'" [] .string))),
      .element "UI.Footer" [.named "wide" none] [] true] false

theorem lexable_itemList : itemList.Lexable { props := ["items", "item"] } := by
  simp only [itemList, Node.Lexable, LexableNodes, Expr.Lexable, List.forall_mem_cons]
  refine ⟨by decide, ⟨?_, ?_, ?_, nofun⟩,
    .inr ⟨by decide, ⟨rfl, ?_, rfl, ?_, .inr ?_⟩, ⟨⟨rfl, ?_⟩, .inr trivial⟩, ?_, trivial⟩⟩
  · refine .inr ⟨by decide, ?_⟩
    rw [if_neg (by decide)]
    rintro _ ⟨⟩
    exact ⟨by decide, by decide⟩
  · refine .inr ⟨by decide, ?_⟩
    rw [if_pos (by decide)]
    exact ⟨by decide, rfl⟩
  · refine .inr ⟨by decide, ?_⟩
    rw [if_neg (by decide)]
    rintro _ ⟨⟩
    exact (by decide : ¬("---" : Text) <:+: unsupportedReason "data" "jsx--element")
  · exact ⟨by decide, by decide⟩
  · rintro _ ⟨⟩
    rfl
  · refine ⟨⟨rfl, by decide, by decide⟩,
      .inr ⟨rfl, by decide, ⟨.inl (by decide), nofun⟩, ?_⟩, .inl rfl⟩
    exact .inr ⟨by decide, trivial⟩
  · exact ⟨by decide, by decide⟩
  · refine ⟨by decide, ⟨.inr ⟨by decide, ?_⟩, nofun⟩, .inl trivial⟩
    rw [if_neg (by decide)]
    exact nofun

theorem tokenize_renderRoot_itemList :
    ∃ r, renderRoot ["items", "item"] itemList = .ok r ∧
      tokenize r.html =
        [⟨.htmlComment,
            "<!-- TODO: Unsupported attribute value for data: jsx- -element -->"⟩,
          ⟨.openTag, "<ul class=\"<%= style %>\" data-action=\"click->select\">"⟩,
          ⟨.text, "Items: "⟩, ⟨.code, "<% @items.each_with_index do |item, i| %>"⟩,
          ⟨.code, "<% if item.done %>"⟩, ⟨.openTag, "<li>"⟩, ⟨.text, "done"⟩, ⟨.closeTag, "</li>"⟩,
          ⟨.code, "<% end %>"⟩, ⟨.code, "<% end %>"⟩, ⟨.code, "<% if empty %>"⟩,
          ⟨.text, "&lt;none&gt;"⟩, ⟨.code, "<% end %>"⟩,
          ⟨.openTag, "<footer data-v0-component=\"Footer\" wide />"⟩, ⟨.closeTag, "</ul>"⟩] ∧
      WellNested (tokenize r.html) := by
  obtain ⟨r, hr, htokens, hnested⟩ := tokenize_renderRoot _ itemList rfl lexable_itemList
  exact ⟨r, hr, htokens.trans (by decide +kernel), hnested⟩

end ViewForge.Markup
