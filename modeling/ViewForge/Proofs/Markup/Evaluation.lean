import ViewForge.Proofs.Erb.Program
import ViewForge.Proofs.Markup.TokenSequence

namespace ViewForge.Markup

open Text Erb

def elementEvents (scope : Scope) (tag : Text) (attributes : List Attribute)
    (inner : List Event) (selfClosing : Bool) : List Event :=
  let (html, reference) := resolveTag tag
  let r := renderAttributes scope reference.isSome attributes
  let written := markerAttribute reference ++ r.parts
  r.warnings.map (.token ∘ placeholderToken) ++
    if selfClosing then [.token (selfClosingToken html written)]
    else .token (openToken html written) :: inner ++ [.token (closeToken html)]

def literalEvents (scope : Scope) (e : Expr) (source : Text) : LiteralKind → List Event
  | .null | .undefined | .boolean _ => []
  | .string => (escape (unquoted source)).map .char
  | .number => source.map .char
  | .template | .regex => [.token (outputToken (e.code scope))]

section Events

variable {σ : Type} (env : Env σ)

mutual

def Node.events (s : σ) (scope : Scope) : Node → List Event
  | .element tag attributes children selfClosing =>
    elementEvents scope tag attributes
      (if selfClosing then [] else nodesEvents s scope children) selfClosing
  | .fragment children => nodesEvents s scope children
  | .text value => value.map .char
  | .container none => []
  | .container (some e) => e.events s scope
  | .unsupported kind _ => [.token (placeholderToken ("Unsupported child node: " ++ kind))]
  | .misplaced _ => []

def nodesEvents (s : σ) (scope : Scope) : List Node → List Event
  | [] => []
  | n :: r => n.events s scope ++ nodesEvents s scope r

/-- A conditional takes one branch, `a && b` shows `b` if `a` holds, and `map` shows its body
once for each element. Branches without content show nothing. -/
def Expr.events (s : σ) (scope : Scope) (e : Expr) : List Event :=
  match e with
  | .conditional _ _ test consequent alternate =>
    if env.holds s (test.code scope) then
      if consequent.isEmptyBranch then [] else consequent.events s scope
    else if alternate.isEmptyBranch then [] else alternate.events s scope
  | .logical _ _ .and left right =>
    if env.holds s (left.code scope) then
      if right.isEmptyBranch then [] else right.events s scope
    else []
  | .call source _ _ [.function _ _ params body _] (some ['m', 'a', 'p']) (some receiver) =>
    match body with
    | none => [.token (placeholderToken (blockBodyReason source))]
    | some b =>
      let names := loopItem params :: (loopIndex params).toList
      (env.each s (receiver.code scope) names).flatMap fun s' ↦
        if b.isEmptyBranch then [] else b.events s' (scope.bind names)
  | .markup _ _ node => if node.isRoot then node.events s scope else []
  | .literal source _ kind => literalEvents scope e source kind
  | .function source .. => [.token (placeholderToken (inlineFunctionReason source))]
  | .misplaced _ => []
  | _ => [.token (outputToken (e.code scope))]

end

end Events

mutual

def Block.commands : Block → List Command
  | .text t => (t.map Event.char).map .emit
  | .placeholder reason => [.emit (.token (placeholderToken reason))]
  | .output code => [.emit (.token (outputToken code))]
  | .selfClosing name attributes => [.emit (.token (selfClosingToken name attributes))]
  | .element name attributes body =>
    .emit (.token (openToken name attributes)) :: blocksCommands body ++
      [.emit (.token (closeToken name))]
  | .guard test body => [.choose test (blocksCommands body) []]
  | .choice test yes no => [.choose test (blocksCommands yes) (blocksCommands no)]
  | .loop receiver item index body =>
    [.each receiver (item :: index.toList) (blocksCommands body)]

def blocksCommands : List Block → List Command
  | [] => []
  | b :: r => b.commands ++ blocksCommands r

end

mutual

def Block.receivers : Block → List Text
  | .loop receiver _ _ body => receiver :: blocksReceivers body
  | .element _ _ body | .guard _ body => blocksReceivers body
  | .choice _ yes no => blocksReceivers yes ++ blocksReceivers no
  | _ => []

def blocksReceivers : List Block → List Text
  | [] => []
  | b :: r => b.receivers ++ blocksReceivers r

end

theorem mem_blocksReceivers {code : Text} {bs : List Block} :
    code ∈ blocksReceivers bs ↔ ∃ b ∈ bs, code ∈ b.receivers := by
  induction bs with
  | nil => simp [blocksReceivers]
  | cons b bs ih => simp [blocksReceivers, ih]

section Read

/-- Code that does not begin with the word `if`. -/
def NotCondition (code : Text) : Prop := ¬startsWith code "if " = true

theorem readToken_code (r : Reading) (code : Text) :
    readToken r (codeToken code) = (codeToken code).control.read r := rfl

theorem readToken_condition (r : Reading) (test : Text) :
    readToken r (codeToken ("if " ++ test)) = some ⟨[], .branch r.body test :: r.openings⟩ := by
  rw [readToken_code, control_condition]
  rfl

theorem readToken_loopCode {receiver item : Text} {index : Option Text} (r : Reading)
    (hitem : isVariable item = true) (hindex : ∀ i ∈ index, isVariable i = true)
    (hreceiver : NotCondition receiver) :
    readToken r (codeToken (loopCode receiver item index)) =
      some ⟨[], .loop r.body receiver (item :: index.toList) :: r.openings⟩ := by
  rw [readToken_code, control_loopCode receiver hitem hindex, if_neg hreceiver]
  rfl

theorem readToken_end (body : List Command) (opening : Opening) (openings : List Opening) :
    readToken ⟨body, opening :: openings⟩ (codeToken "end") =
      some ⟨opening.close body, openings⟩ := rfl

theorem readToken_else (before yes : List Command) (test : Text) (openings : List Opening) :
    readToken ⟨yes, .branch before test :: openings⟩ (codeToken "else") =
      some ⟨[], .alternative before test yes :: openings⟩ := rfl

theorem readToken_openToken (r : Reading) (name a : Text) : readToken r (openToken name a) =
    some { r with body := r.body ++ [.emit (.token (openToken name a))] } := rfl

theorem readToken_closeToken (r : Reading) (name : Text) : readToken r (closeToken name) =
    some { r with body := r.body ++ [.emit (.token (closeToken name))] } := rfl

variable {b : Block} {bs : List Block}

/-- What is read as the commands of blocks, after whatever has been read before. -/
def Reads (ts : List Token) (cs : List Command) : Prop :=
  ∀ r : Reading, ts.foldlM readToken r = some { r with body := r.body ++ cs }

theorem reads_blocksTokens (h : ∀ b ∈ bs, Reads b.tokens b.commands) :
    Reads (blocksTokens bs) (blocksCommands bs) := by
  intro r
  induction bs generalizing r with
  | nil => simp [blocksTokens, blocksCommands]
  | cons b bs ih =>
    rw [List.forall_mem_cons] at h
    rw [blocksTokens, run_append (h.1 r), ih h.2, blocksCommands, List.append_assoc]

theorem reads_body (h : ∀ b ∈ bs, (∀ code ∈ b.receivers, NotCondition code) →
      Reads b.tokens b.commands) (hbs : ∀ code ∈ blocksReceivers bs, NotCondition code) :
    Reads (blocksTokens bs) (blocksCommands bs) :=
  reads_blocksTokens fun b hb ↦
    h b hb fun code hcode ↦ hbs code (mem_blocksReceivers.2 ⟨b, hb, hcode⟩)

theorem Block.Clean.reads (h : b.Clean) (hreceivers : ∀ code ∈ b.receivers, NotCondition code) :
    Reads b.tokens b.commands := by
  induction h with
  | text ht => exact fun r ↦ rfl
  | placeholder hr => exact fun r ↦ rfl
  | output hc => exact fun r ↦ rfl
  | selfClosing hn ha => exact fun r ↦ rfl
  | element hn ha hb ih =>
    intro r
    rw [Block.tokens, List.cons_append, run_cons (readToken_openToken r _ _),
      run_append (reads_body ih hreceivers _), run_cons (readToken_closeToken _ _), Block.commands]
    simp
  | guard ht hb ih =>
    intro r
    rw [Block.tokens, List.cons_append, run_cons (readToken_condition r _),
      run_append (reads_body ih hreceivers _), run_cons (readToken_end _ _ _), Block.commands]
    rfl
  | choice ht hy hn ihy ihn =>
    intro r
    rw [Block.receivers, List.forall_mem_append] at hreceivers
    rw [Block.tokens, List.append_assoc, List.cons_append, List.cons_append,
      run_cons (readToken_condition r _), run_append (reads_body ihy hreceivers.1 _),
      run_cons (readToken_else _ _ _ _), run_append (reads_body ihn hreceivers.2 _),
      run_cons (readToken_end _ _ _), Block.commands]
    rfl
  | loop hr hitem hindex hb ih =>
    intro r
    rw [Block.receivers, List.forall_mem_cons] at hreceivers
    rw [Block.tokens, List.cons_append,
      run_cons (readToken_loopCode r hitem hindex hreceivers.1),
      run_append (reads_body ih hreceivers.2 _), run_cons (readToken_end _ _ _), Block.commands]
    rfl

theorem program?_blocks (h : ∀ b ∈ bs, b.Clean)
    (hreceivers : ∀ code ∈ blocksReceivers bs, NotCondition code) :
    program? (joinTexts (blocksTokens bs)) = some (blocksCommands bs) := by
  rw [program?_joinTexts, program?, reads_body (fun b hb ↦ (h b hb).reads) hreceivers]
  rfl

end Read

section Run

variable {σ : Type} (env : Env σ) (s : σ)

def runBlocks (bs : List Block) : List Event := runAll env s (blocksCommands bs)

theorem blocksCommands_append (a b : List Block) :
    blocksCommands (a ++ b) = blocksCommands a ++ blocksCommands b := by
  induction a with
  | nil => rfl
  | cons x a ih => rw [List.cons_append, blocksCommands, blocksCommands, ih, List.append_assoc]

theorem runBlocks_append (a b : List Block) :
    runBlocks env s (a ++ b) = runBlocks env s a ++ runBlocks env s b := by
  rw [runBlocks, blocksCommands_append, runAll_append]
  rfl

theorem runBlocks_singleton (b : Block) : runBlocks env s [b] = runAll env s b.commands := by
  rw [runBlocks, blocksCommands, blocksCommands, List.append_nil]

theorem runBlocks_text (t : Text) : runBlocks env s [.text t] = t.map .char := by
  rw [runBlocks_singleton, Block.commands, runAll_emit]

theorem runBlocks_placeholders (reasons : List Text) :
    runBlocks env s (reasons.map .placeholder) = reasons.map (.token ∘ placeholderToken) := by
  induction reasons with
  | nil => rfl
  | cons reason reasons ih =>
    rw [List.map_cons, List.map_cons, ← ih]
    exact runBlocks_append env s [.placeholder reason] _

theorem runBlocks_guard (test : Text) (bs : List Block) :
    runBlocks env s [.guard test bs] = if env.holds s test then runBlocks env s bs else [] := by
  rw [runBlocks_singleton, Block.commands, runAll, Command.run, runAll, List.append_nil]
  rfl

theorem runBlocks_choice (test : Text) (yes no : List Block) :
    runBlocks env s [.choice test yes no] =
      if env.holds s test then runBlocks env s yes else runBlocks env s no := by
  rw [runBlocks_singleton, Block.commands, runAll, Command.run, runAll, List.append_nil]
  rfl

theorem runBlocks_loop (receiver item : Text) (index : Option Text) (bs : List Block) :
    runBlocks env s [.loop receiver item index bs] =
      (env.each s receiver (item :: index.toList)).flatMap fun s' ↦ runBlocks env s' bs := by
  rw [runBlocks_singleton, Block.commands, runAll, Command.run, runAll, List.append_nil]
  rfl

theorem runBlocks_element (name a : Text) (bs : List Block) :
    runBlocks env s [.element name a bs] =
      .token (openToken name a) :: runBlocks env s bs ++ [.token (closeToken name)] := by
  rw [runBlocks_singleton, Block.commands, List.cons_append, runAll, runAll_append, Command.run]
  rfl

/-- Only texts without characters leave no trace in a template, and they show nothing. -/
theorem commands_of_render_eq_nil {b : Block} (h : render b.tokens = []) : b.commands = [] := by
  cases b with
  | text t =>
    have ht : t = [] := by simpa [Block.tokens, render] using h
    rw [ht]
    rfl
  | placeholder | output | selfClosing | element | guard | choice | loop =>
    exact absurd h (List.cons_ne_nil _ _)

theorem runBlocks_of_render_eq_nil {bs : List Block} (h : render (blocksTokens bs) = []) :
    runBlocks env s bs = [] := by
  induction bs with
  | nil => rfl
  | cons b bs ih =>
    rw [blocksTokens, render_append, List.append_eq_nil_iff] at h
    rw [runBlocks, blocksCommands, commands_of_render_eq_nil h.1, List.nil_append]
    exact ih h.2

theorem runBlocks_conditionalBlock (test : Text) (yes no : List Block) :
    runBlocks env s [conditionalBlock test yes no] =
      if env.holds s test then runBlocks env s yes else runBlocks env s no := by
  rw [conditionalBlock]
  split
  next hempty =>
    rw [runBlocks_guard, runBlocks_of_render_eq_nil env s (List.isEmpty_iff.1 hempty)]
  next => exact runBlocks_choice env s test yes no

theorem runBlocks_elementBlocks (scope : Scope) (tag : Text) (attributes : List Attribute)
    (bs : List Block) (selfClosing : Bool) :
    runBlocks env s (elementBlocks scope tag attributes bs selfClosing) =
      elementEvents scope tag attributes (runBlocks env s bs) selfClosing := by
  rw [elementBlocks, elementEvents, runBlocks_append, runBlocks_placeholders]
  cases selfClosing with
  | true => rfl
  | false => exact congrArg _ (runBlocks_element env s _ _ bs)

theorem runBlocks_literalBlocks (scope : Scope) (e : Expr) (source : Text) (kind : LiteralKind) :
    runBlocks env s (literalBlocks scope e source kind) = literalEvents scope e source kind := by
  cases kind with
  | string => exact runBlocks_text env s _
  | number => exact runBlocks_text env s _
  | template | regex | boolean | null | undefined => rfl

theorem runBlocks_branch {e : Expr} {scope : Scope}
    (h : ∀ s, runBlocks env s (e.blocks scope) = e.events env s scope) :
    runBlocks env s (if e.isEmptyBranch then [] else e.blocks scope) =
      if e.isEmptyBranch then [] else e.events env s scope := by
  split
  · rfl
  · exact h s

omit s in
/-- Running the blocks of markup shows what the markup shows, by induction over nodes,
expressions and lists of nodes as the renderer goes through them. -/
theorem runBlocks_blocks :
    (∀ scope (n : Node) s, runBlocks env s (n.blocks scope) = n.events env s scope) ∧
    (∀ scope (e : Expr) s, runBlocks env s (e.blocks scope) = e.events env s scope) ∧
    (∀ scope ns s, runBlocks env s (nodesBlocks scope ns) = nodesEvents env s scope ns) := by
  apply Node.render.mutual_induct
    (fun scope n ↦ ∀ s, runBlocks env s (n.blocks scope) = n.events env s scope)
    (fun scope e ↦ ∀ s, runBlocks env s (e.blocks scope) = e.events env s scope)
    (fun scope ns ↦ ∀ s, runBlocks env s (nodesBlocks scope ns) = nodesEvents env s scope ns)
  -- Expressions, the last case being those that are written as they stand.
  case case1 =>
    intro scope source refs test consequent alternate ihc iha s
    rw [Expr.blocks, Expr.events, runBlocks_conditionalBlock, runBlocks_branch env s ihc,
      runBlocks_branch env s iha]
  case case2 =>
    intro scope source refs left right ih s
    rw [Expr.blocks, Expr.events, runBlocks_guard, runBlocks_branch env s ih]
  case case3 =>
    intro scope source refs callee source' refs' params block receiver s
    rw [Expr.blocks, Expr.events]
    rfl
  case case4 =>
    intro scope _ _ _ _ _ params _ receiver b bound head warnings hhead ih s
    obtain ⟨loopWarnings, heq⟩ := loopHead_eq (receiver.code scope) params
    rw [heq, Prod.mk.injEq] at hhead
    obtain ⟨rfl, -⟩ := hhead
    rw [Expr.blocks, Expr.events, runBlocks_loop]
    exact congrArg (List.flatMap · _) (funext fun s' ↦ runBlocks_branch env s' ih)
  case case5 =>
    intro scope source refs node hroot ih s
    rw [Expr.blocks, Expr.events, if_pos hroot, if_pos hroot]
    exact ih s
  case case6 =>
    intro scope source refs node hroot s
    rw [Expr.blocks, Expr.events, if_neg hroot, if_neg hroot]
    rfl
  case case7 =>
    intro scope source refs kind s
    rw [Expr.blocks, Expr.events]
    exact runBlocks_literalBlocks env s _ _ _ _
  case case8 =>
    intro scope source refs params body block s
    rw [Expr.blocks, Expr.events]
    rfl
  case case9 =>
    intro scope kind s
    rw [Expr.blocks, Expr.events]
    rfl
  case case10 =>
    intro e scope h₁ h₂ h₃ h₄ h₅ h₆ h₇ s
    rw [Expr.blocks, Expr.events] <;> try assumption
    rfl
  -- Nodes, then lists of nodes.
  case case11 =>
    intro scope tag attributes children selfClosing ih s
    rw [Node.blocks, Node.events, runBlocks_elementBlocks]
    cases selfClosing with
    | true => rfl
    | false => exact congrArg (elementEvents scope tag attributes · false) (ih s)
  case case12 =>
    intro scope children ih s
    rw [Node.blocks, Node.events]
    exact ih s
  case case13 =>
    intro scope value s
    rw [Node.blocks, Node.events]
    exact runBlocks_text env s value
  case case14 =>
    intro scope s
    rw [Node.blocks, Node.events]
    rfl
  case case15 =>
    intro scope e ih s
    rw [Node.blocks, Node.events]
    exact ih s
  case case16 =>
    intro scope kind source s
    rw [Node.blocks, Node.events]
    rfl
  case case17 =>
    intro scope kind s
    rw [Node.blocks, Node.events]
    rfl
  case case18 =>
    intro scope s
    rw [nodesBlocks, nodesEvents]
    rfl
  case case19 =>
    intro scope n r ihn ihr s
    rw [nodesBlocks, nodesEvents, runBlocks_append, ihn, ihr]

end Run

/-- In every environment, the template that a root renders to writes what the root shows, if no
receiver begins with the word `if`: the head of a loop over one would be that of a condition. -/
theorem runTemplate_renderRoot {σ : Type} (env : Env σ) (s : σ) (props : List Text) (root : Node)
    (hroot : root.isRoot = true) (h : root.Lexable { props })
    (hreceivers : ∀ code ∈ blocksReceivers (root.blocks { props }), NotCondition code) :
    ∃ r, renderRoot props root = .ok r ∧
      runTemplate env s r.html = some (root.events env s { props }) := by
  have hdraws := draws_render.1 { props } root h
  refine ⟨root.render { props }, ?_, ?_⟩
  · simp only [renderRoot, if_pos hroot, hdraws.misfits]
  · rw [runTemplate, hdraws.html, tokenize_blocks hdraws.clean,
      program?_blocks hdraws.clean hreceivers, Option.map_some]
    exact congrArg some ((runBlocks_blocks env).1 { props } root s)

def threeItems : Env Nat where
  holds place code := code == "item.done" && place % 2 == 0
  each _ _ _ := [0, 1, 2]

/-- Of three items the first and the last are done, and the list is not empty. -/
theorem runTemplate_renderRoot_itemList :
    ∃ r, renderRoot ["items", "item"] itemList = .ok r ∧
      runTemplate threeItems 0 r.html =
        some [.token ⟨.htmlComment,
            "<!-- TODO: Unsupported attribute value for data: jsx- -element -->"⟩,
          .token ⟨.openTag, "<ul class=\"<%= style %>\" data-action=\"click->select\">"⟩,
          .char 'I', .char 't', .char 'e', .char 'm', .char 's', .char ':', .char ' ',
          .token ⟨.openTag, "<li>"⟩, .char 'd', .char 'o', .char 'n', .char 'e',
          .token ⟨.closeTag, "</li>"⟩,
          .token ⟨.openTag, "<li>"⟩, .char 'd', .char 'o', .char 'n', .char 'e',
          .token ⟨.closeTag, "</li>"⟩,
          .token ⟨.openTag, "<footer data-v0-component=\"Footer\" wide />"⟩,
          .token ⟨.closeTag, "</ul>"⟩] := by
  have hreceivers : blocksReceivers (itemList.blocks { props := ["items", "item"] }) =
      [("@items" : Text)] := rfl
  obtain ⟨r, hr, hrun⟩ := runTemplate_renderRoot threeItems 0 ["items", "item"] itemList rfl
    lexable_itemList (by
      rw [hreceivers, List.forall_mem_singleton]
      exact (by decide : ¬startsWith ("@items" : Text) "if " = true))
  exact ⟨r, hr, hrun.trans (by decide +kernel)⟩

def conditionList : Node :=
  .fragment
    [.container (some (.call [] [] (.member "if x.map" [] (some "if x"))
      [.function [] [] [⟨some "row", "row", none⟩] (some (.literal "1" [] .number)) none]
      (some ['m', 'a', 'p']) (some (.other "if x" [] "object"))))]

/-- The list shows its body three times, but the head of its loop is read as that of a condition. -/
theorem runTemplate_conditionList :
    conditionList.isRoot = true ∧ conditionList.Lexable { props := [] } ∧
      conditionList.events threeItems 0 { props := [] } = [.char '1', .char '1', .char '1'] ∧
      ∃ r, renderRoot [] conditionList = .ok r ∧
        r.html = ("<% if x.each do |row| %>1<% end %>" : Text) ∧
        runTemplate threeItems 0 r.html = some [] := by
  have hlexable : conditionList.Lexable { props := [] } := by
    simp only [conditionList, Node.Lexable, LexableNodes, Expr.Lexable, and_true]
    refine ⟨rfl, ⟨by decide, by decide⟩, by decide, ?_, .inr ?_⟩
    · intro i hi
      cases hi
    · exact (by decide : '<' ∉ ("1" : Text))
  refine ⟨rfl, hlexable, by decide +kernel, conditionList.render { props := [] }, ?_,
    by decide +kernel, by decide +kernel⟩
  have hroot : conditionList.isRoot = true := rfl
  simp only [renderRoot, if_pos hroot,
    (draws_render.1 { props := [] } conditionList hlexable).misfits]

end ViewForge.Markup
