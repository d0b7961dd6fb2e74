import ViewForge.Proofs.Markup.TokenSequence
import ViewForge.Proofs.Text.Respacing
import ViewForge.Template.Binding

namespace ViewForge.Markup

open Text Erb Template

mutual

def Block.outputs : Block → List Text
  | .output code => [code]
  | .text _ | .placeholder _ | .selfClosing _ _ => []
  | .element _ _ body | .guard _ body | .loop _ _ _ body => blocksOutputs body
  | .choice _ yes no => blocksOutputs yes ++ blocksOutputs no

def blocksOutputs : List Block → List Text
  | [] => []
  | b :: r => b.outputs ++ blocksOutputs r

end

def isOutput (k : Token) : Bool := k.kind == .output

mutual

theorem Block.filter_tokens (b : Block) :
    b.tokens.filter isOutput = b.outputs.map outputToken := by
  cases b with
  | text | placeholder | output | selfClosing => rfl
  | element name attributes body =>
    rw [Block.tokens, filter_enclosed rfl rfl, filter_blocksTokens body, Block.outputs]
  | guard test body =>
    rw [Block.tokens, filter_enclosed rfl rfl, filter_blocksTokens body, Block.outputs]
  | choice test yes no =>
    have hno : (codeToken "else" :: blocksTokens no ++ [codeToken "end"]).filter isOutput = _ :=
      filter_enclosed rfl rfl _
    rw [Block.tokens, List.append_assoc, List.filter_append, hno, filter_blocksTokens no,
      List.filter_cons_of_neg Bool.false_ne_true, filter_blocksTokens yes, Block.outputs,
      List.map_append]
  | loop receiver item index body =>
    rw [Block.tokens, filter_enclosed rfl rfl, filter_blocksTokens body, Block.outputs]

theorem filter_blocksTokens (bs : List Block) :
    (blocksTokens bs).filter isOutput = (blocksOutputs bs).map outputToken := by
  cases bs with
  | nil => rfl
  | cons b r =>
    rw [blocksTokens, List.filter_append, b.filter_tokens, filter_blocksTokens r, blocksOutputs,
      List.map_append]

end

theorem filter_joinTexts (ts : List Token) :
    (joinTexts ts).filter isOutput = ts.filter isOutput := joinTexts_filter (fun _ ↦ rfl) ts

def isChildrenCode (code : Text) : Bool := strip code == "@children" || strip code == "children"

def contentToken : Token := ⟨.output, "<%= content %>"⟩

theorem code_outputToken (code : Text) : (outputToken code).code = strip code := by
  have hbody : ((outputDirective code).drop 2).take ((outputDirective code).length - 4) =
      '=' :: ' ' :: (code ++ [' ']) := by
    have hlen : (outputDirective code).length - 4 = ('=' :: ' ' :: (code ++ [' '])).length := by
      simp [outputDirective]
    have hdrop : (outputDirective code).drop 2 = '=' :: ' ' :: (code ++ [' ']) ++ "%>" := by
      simp [outputDirective]
    rw [hlen, hdrop, List.take_left]
  have hend : ¬endsWith (' ' :: (code ++ [' '])) "-" = true := by
    simp [endsWith]
  rw [Token.code, outputToken]
  simp only [hbody, if_neg hend]
  rw [strip_cons_blank (by decide), strip_append_blank _ (ink_eq_nil_iff.1 rfl)]

theorem isChildrenOutput_outputToken (code : Text) :
    isChildrenOutput (outputToken code) = isChildrenCode code := by
  rw [isChildrenOutput, code_outputToken]
  rfl

def showContent (k : Token) : Token := if isChildrenOutput k then contentToken else k

theorem isOutput_of_isChildrenOutput {k : Token} (h : isChildrenOutput k = true) :
    isOutput k = true := (Bool.and_eq_true_iff.1 h).1

theorem kind_showContent (k : Token) : (showContent k).kind = k.kind := by
  rw [showContent]
  split
  next h => exact (beq_iff_eq.1 (isOutput_of_isChildrenOutput h)).symm
  next => rfl

section Children

variable {ts : List Token} {codes : List Text} (h : ts.filter isOutput = codes.map outputToken)

include h

theorem any_isChildrenOutput : ts.any isChildrenOutput = codes.any isChildrenCode := by
  have hfilter : (ts.filter isOutput).any isChildrenOutput = ts.any isChildrenOutput := by
    rw [List.any_filter]
    congr 1
    funext k
    cases hk : isChildrenOutput k with
    | true => rw [isOutput_of_isChildrenOutput hk]; rfl
    | false => exact Bool.and_false _
  rw [← hfilter, h, List.any_map]
  exact congrArg codes.any (funext isChildrenOutput_outputToken)

theorem filter_map_showContent : (ts.map showContent).filter isOutput =
    codes.map fun code ↦ if isChildrenCode code then contentToken else outputToken code := by
  have hkept : isOutput ∘ showContent = isOutput :=
    funext fun k ↦ congrArg (· == TokenKind.output) (kind_showContent k)
  rw [List.filter_map, hkept, h, List.map_map]
  refine List.map_congr_left fun code _ ↦ ?_
  rw [Function.comp_apply, showContent, isChildrenOutput_outputToken]

end Children

/-- Tokens with their children shown are cut apart again. -/
theorem tokenize_substituteChildren {template : Text} (h : ∀ k ∈ tokenize template, k.Clean) :
    tokenize (substituteChildren template) = (tokenize template).map showContent := by
  refine tokenize_eq_of_render rfl ?_ ?_
  · intro k hk
    obtain ⟨j, hj, rfl⟩ := List.mem_map.1 hk
    rw [showContent]
    split
    · exact .directive (.output " content " ⟨by decide, by decide⟩)
    · exact h j hj
  · refine List.isChain_map_of_isChain showContent ?_ (tokenize_isChain template)
    intro a b hsep
    rwa [Token.Separate, kind_showContent, kind_showContent]

/-- Every expression that a root shows is cut out as a directive of its own, and the children among
them are found and replaced by the content of the component. -/
theorem outputs_renderRoot (props : List Text) (root : Node) (hroot : root.isRoot = true)
    (h : root.Lexable { props }) :
    ∃ r, renderRoot props root = .ok r ∧
      (tokenize r.html).filter isOutput = (blocksOutputs (root.blocks { props })).map outputToken ∧
      hasChildren r.html = (blocksOutputs (root.blocks { props })).any isChildrenCode ∧
      (tokenize (substituteChildren r.html)).filter isOutput =
        (blocksOutputs (root.blocks { props })).map fun code ↦
          if isChildrenCode code then contentToken else outputToken code := by
  have hdraws := draws_render.1 { props } root h
  have hloose := loose_joinTexts (loose_blocksTokens fun b hb ↦ (hdraws.clean b hb).loose)
  have htokens : tokenize (root.render { props }).html =
      joinTexts (blocksTokens (root.blocks { props })) := by
    rw [hdraws.html, tokenize_blocks hdraws.clean]
  have hclean : ∀ k ∈ tokenize (root.render { props }).html, k.Clean := by
    rw [htokens]
    exact fun k hk ↦ (hloose k hk).1.clean (hloose k hk).2
  have hfilter : (tokenize (root.render { props }).html).filter isOutput =
      (blocksOutputs (root.blocks { props })).map outputToken := by
    rw [htokens, filter_joinTexts, filter_blocksTokens]
  refine ⟨root.render { props }, ?_, hfilter, any_isChildrenOutput hfilter, ?_⟩
  · simp only [renderRoot, if_pos hroot, hdraws.misfits]
  · rw [tokenize_substituteChildren hclean, filter_map_showContent hfilter]

def quoted (before after : Text) : Node :=
  .element "p" []
    [.container (some (.literal before [] .template)),
      .container (some (.identifier "children" [] "children")),
      .container (some (.literal after [] .template))] false

theorem outputs_renderRoot_quoted :
    ∃ r, renderRoot ["children"] (quoted "`it's John's`" "`so`") = .ok r ∧
      (tokenize r.html).filter isOutput =
        [outputToken "`it's John's`", outputToken "@children", outputToken "`so`"] ∧
      hasChildren r.html = true ∧
      (tokenize (substituteChildren r.html)).filter isOutput =
        [outputToken "`it's John's`", contentToken, outputToken "`so`"] := by
  have hlexable : (quoted "`it's John's`" "`so`").Lexable { props := ["children"] } := by
    simp only [quoted, Node.Lexable, LexableNodes, Expr.Lexable, LexableLiteral]
    refine ⟨by decide, List.forall_mem_nil _, .inr ?_⟩
    exact ⟨⟨by decide, by decide⟩, ⟨by decide, by decide⟩, ⟨by decide, by decide⟩, trivial⟩
  exact outputs_renderRoot ["children"] _ rfl hlexable

/-- The string that the first literal leaves open goes on to the last one, and the children between
them are not seen. -/
theorem hasChildren_open_string :
    ∃ r, renderRoot ["children"] (quoted "`it's`" "`that's`") = .ok r ∧
      blocksOutputs ((quoted "`it's`" "`that's`").blocks { props := ["children"] }) =
        ["`it's`", "@children", "`that's`"] ∧
      (∀ code ∈ (["`it's`", "@children", "`that's`"] : List Text), ¬("%>" : Text) <:+: code) ∧
      (tokenize r.html).filter isOutput =
        [⟨.output, "<%= `it's` %><%= @children %><%= `that's` %>"⟩] ∧
      hasChildren r.html = false ∧ substituteChildren r.html = r.html := by
  exact ⟨_, rfl, by decide, by decide, by decide +kernel, by decide, by decide +kernel⟩

end ViewForge.Markup
