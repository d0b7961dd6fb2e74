import Mathlib.Data.List.Chain
import ViewForge.Proofs.Erb.Nesting

namespace ViewForge.Markup

open Text Erb

/-- Rendered markup. The attributes of a tag are already written out. -/
inductive Block where
  | text (t : Text)
  | placeholder (reason : Text)
  | output (code : Text)
  | selfClosing (name attributes : Text)
  | element (name attributes : Text) (body : List Block)
  | guard (test : Text) (body : List Block)
  | choice (test : Text) (yes no : List Block)
  | loop (receiver item : Text) (index : Option Text) (body : List Block)

def placeholderToken (reason : Text) : Token := ⟨.htmlComment, Placeholder.comment reason⟩

def outputToken (code : Text) : Token := ⟨.output, outputDirective code⟩

mutual

def Block.tokens : Block → List Token
  | .text t => [⟨.text, t⟩]
  | .placeholder reason => [placeholderToken reason]
  | .output code => [outputToken code]
  | .selfClosing name attributes => [selfClosingToken name attributes]
  | .element name attributes body =>
    openToken name attributes :: blocksTokens body ++ [closeToken name]
  | .guard test body => codeToken ("if " ++ test) :: blocksTokens body ++ [codeToken "end"]
  | .choice test yes no =>
    codeToken ("if " ++ test) :: blocksTokens yes ++ codeToken "else" :: blocksTokens no ++
      [codeToken "end"]
  | .loop receiver item index body =>
    codeToken (loopCode receiver item index) :: blocksTokens body ++ [codeToken "end"]

def blocksTokens : List Block → List Token
  | [] => []
  | b :: r => b.tokens ++ blocksTokens r

end

theorem blocksTokens_append (a b : List Block) :
    blocksTokens (a ++ b) = blocksTokens a ++ blocksTokens b := by
  induction a with
  | nil => rfl
  | cons x a ih => rw [List.cons_append, blocksTokens, blocksTokens, ih, List.append_assoc]

theorem filter_enclosed {p : Token → Bool} {k k' : Token} (hk : p k = false) (hk' : p k' = false)
    (ts : List Token) : (k :: ts ++ [k']).filter p = ts.filter p := by
  simp [hk, hk']

def CleanReason (reason : Text) : Prop := ¬("---" : Text) <:+: reason

inductive Block.Clean : Block → Prop
  | text {t : Text} : '<' ∉ t → Clean (.text t)
  | placeholder {reason : Text} : CleanReason reason → Clean (.placeholder reason)
  | output {code : Text} : CleanCode code → Clean (.output code)
  | selfClosing {name a : Text} : isTagName name = true → TagAttributes a →
      Clean (.selfClosing name a)
  | element {name a : Text} {body : List Block} : isTagName name = true → TagAttributes a →
      (∀ b ∈ body, Clean b) → Clean (.element name a body)
  | guard {test : Text} {body : List Block} : CleanCode test → (∀ b ∈ body, Clean b) →
      Clean (.guard test body)
  | choice {test : Text} {yes no : List Block} : CleanCode test → (∀ b ∈ yes, Clean b) →
      (∀ b ∈ no, Clean b) → Clean (.choice test yes no)
  | loop {receiver item : Text} {index : Option Text} {body : List Block} : CleanCode receiver →
      isVariable item = true → (∀ i ∈ index, isVariable i = true) → (∀ b ∈ body, Clean b) →
      Clean (.loop receiver item index body)

section Placeholder

def Apart (a b : Char) : Prop := a ≠ '-' ∨ b ≠ '-'

theorem head?_spaced (t : Text) : (Placeholder.spaced t).head? = t.head? := by
  fun_cases Placeholder.spaced t <;> rfl

/-- No two dashes stand side by side in a reason that had no three. -/
theorem isChain_spaced {t : Text} (h : CleanReason t) :
    (Placeholder.spaced t).IsChain Apart := by
  fun_induction Placeholder.spaced t with
  | case1 => exact .nil
  | case2 r ih =>
    have hr : CleanReason r := fun hin ↦
      h (hin.trans ((List.suffix_cons _ r).trans (List.suffix_cons _ _)).isInfix)
    have hhead : ∀ c ∈ (Placeholder.spaced r).head?, Apart '-' c := by
      rw [head?_spaced]
      refine fun c hc ↦ .inr ?_
      rintro rfl
      obtain ⟨s, rfl⟩ := List.head?_eq_some_iff.1 hc
      exact h ⟨[], s, rfl⟩
    have hlast := List.isChain_cons.2 ⟨hhead, ih hr⟩
    exact .cons_cons (.inr (by decide)) (.cons_cons (.inl (by decide)) hlast)
  | case3 c r hc ih =>
    have hr : CleanReason r := fun hin ↦ h (hin.trans (List.suffix_cons c r).isInfix)
    have hhead : ∀ d ∈ (Placeholder.spaced r).head?, Apart c d := by
      rw [head?_spaced]
      intro d hd
      by_contra hdash
      simp only [Apart, not_or, not_not] at hdash
      obtain ⟨rfl, rfl⟩ := hdash
      obtain ⟨s, rfl⟩ := List.head?_eq_some_iff.1 hd
      exact hc s rfl rfl
    exact List.isChain_cons.2 ⟨hhead, ih hr⟩

/-- A comment is one token if what it says of its reason does not end it. -/
theorem clean_comment {reason : Text} (h : ¬("-->" : Text) <:+: Placeholder.spaced reason) :
    Token.Clean ⟨.htmlComment, Placeholder.comment reason⟩ := by
  have hmark : ' ' ∉ ("-->" : Text) := by decide
  have hclose : ¬("-->" : Text) <:+:
      ' ' :: ("TODO:" ++ ' ' :: (Placeholder.spaced reason ++ " ")) := by
    intro hin
    rcases infix_append_cons (a := []) hmark hin with hin | hin
    · exact absurd hin (by decide)
    rcases infix_append_cons hmark hin with hin | hin
    · exact absurd hin (by decide)
    rcases infix_append_cons hmark hin with hin | hin
    · exact h hin
    · exact absurd hin (by decide)
  have hcomment : Placeholder.comment reason =
      "<!--" ++ ' ' :: ("TODO:" ++ ' ' :: (Placeholder.spaced reason ++ " ")) ++ "-->" := by
    unfold Placeholder.comment Placeholder.marker
    generalize Placeholder.spaced reason = s
    simp
  rw [hcomment]
  exact .htmlComment _ hclose

theorem clean_placeholder {reason : Text} (h : CleanReason reason) :
    Token.Clean ⟨.htmlComment, Placeholder.comment reason⟩ := by
  refine clean_comment fun hin ↦ ?_
  have hdash := List.IsChain.infix (isChain_spaced h) hin
  exact (List.isChain_cons_cons.1 hdash).1.elim (fun h ↦ h rfl) fun h ↦ h rfl

end Placeholder

theorem mem_blocksTokens {k : Token} {bs : List Block} :
    k ∈ blocksTokens bs ↔ ∃ b ∈ bs, k ∈ b.tokens := by
  induction bs with
  | nil => simp [blocksTokens]
  | cons b bs ih => simp [blocksTokens, ih]

theorem loose_blocksTokens {bs : List Block} (h : ∀ b ∈ bs, ∀ k ∈ b.tokens, k.Loose) :
    ∀ k ∈ blocksTokens bs, k.Loose := by
  intro k hk
  obtain ⟨b, hb, hk⟩ := mem_blocksTokens.1 hk
  exact h b hb k hk

theorem loose_end : (codeToken "end").Loose := clean_codeToken ⟨by decide, rfl⟩

theorem loose_else : (codeToken "else").Loose := clean_codeToken ⟨by decide, rfl⟩

theorem Block.Clean.loose {b : Block} (h : b.Clean) : ∀ k ∈ b.tokens, k.Loose := by
  induction h with
  | text ht =>
    rw [Block.tokens, List.forall_mem_singleton]
    exact ht
  | placeholder hr =>
    rw [Block.tokens, List.forall_mem_singleton]
    exact clean_placeholder hr
  | output hc =>
    rw [Block.tokens, List.forall_mem_singleton]
    exact .directive (cleanDirective_output hc)
  | selfClosing hn ha =>
    rw [Block.tokens, List.forall_mem_singleton]
    exact ha.clean_selfClosing hn
  | element hn ha hb ih =>
    rw [Block.tokens, List.forall_mem_append, List.forall_mem_cons, List.forall_mem_singleton]
    exact ⟨⟨ha.clean_openTag hn, loose_blocksTokens ih⟩, .closeTag _ hn⟩
  | guard ht hb ih =>
    rw [Block.tokens, List.forall_mem_append, List.forall_mem_cons, List.forall_mem_singleton]
    exact ⟨⟨clean_codeToken (cleanCode_condition ht), loose_blocksTokens ih⟩, loose_end⟩
  | choice ht hy hn ihy ihn =>
    rw [Block.tokens, List.forall_mem_append, List.forall_mem_append, List.forall_mem_cons,
      List.forall_mem_cons, List.forall_mem_singleton]
    exact ⟨⟨⟨clean_codeToken (cleanCode_condition ht), loose_blocksTokens ihy⟩, loose_else,
      loose_blocksTokens ihn⟩, loose_end⟩
  | loop hr hitem hindex hb ih =>
    rw [Block.tokens, List.forall_mem_append, List.forall_mem_cons, List.forall_mem_singleton]
    exact ⟨⟨clean_codeToken (cleanCode_loopCode hr hitem hindex), loose_blocksTokens ih⟩,
      loose_end⟩

theorem nest_blocksTokens {bs : List Block} (stack : List Frame)
    (h : ∀ b ∈ bs, ∀ stack, b.tokens.foldlM nest stack = some stack) :
    (blocksTokens bs).foldlM nest stack = some stack := by
  induction bs with
  | nil => rfl
  | cons b bs ih =>
    rw [List.forall_mem_cons] at h
    rw [blocksTokens, run_append (h.1 stack)]
    exact ih h.2

theorem Block.Clean.nested {b : Block} (h : b.Clean) (stack : List Frame) :
    b.tokens.foldlM nest stack = some stack := by
  induction h generalizing stack with
  | text ht => rfl
  | placeholder hr => rfl
  | output hc => rfl
  | selfClosing hn ha =>
    rw [Block.tokens, run_cons (nest_selfClosing stack)]
    rfl
  | element hn ha hb ih =>
    rw [Block.tokens, List.cons_append, run_cons (nest_openTag stack hn ha),
      run_append (nest_blocksTokens _ ih), run_cons (nest_closeTag stack hn)]
    rfl
  | guard ht hb ih =>
    rw [Block.tokens, List.cons_append, run_cons (nest_condition stack _),
      run_append (nest_blocksTokens _ ih)]
    rfl
  | choice ht hy hn ihy ihn =>
    have helse : nest (.branch :: stack) (codeToken "else") = some (.alternative :: stack) := rfl
    rw [Block.tokens, List.append_assoc, List.cons_append, List.cons_append,
      run_cons (nest_condition stack _), run_append (nest_blocksTokens _ ihy),
      run_cons helse, run_append (nest_blocksTokens _ ihn)]
    rfl
  | loop hr hitem hindex hb ih =>
    obtain ⟨frame, hopen, hclose⟩ := nest_loopCode stack _ hitem hindex
    rw [Block.tokens, List.cons_append, run_cons hopen,
      run_append (nest_blocksTokens _ ih), run_cons hclose]
    rfl

section Clean

variable {bs : List Block} (h : ∀ b ∈ bs, b.Clean)

include h

theorem tokenize_blocks :
    tokenize (render (blocksTokens bs)) = joinTexts (blocksTokens bs) :=
  tokenize_render_of_loose (loose_blocksTokens fun b hb ↦ (h b hb).loose)

theorem wellNested_blocks : WellNested (joinTexts (blocksTokens bs)) := by
  have hrun := nest_blocksTokens [] fun b hb stack ↦ (h b hb).nested stack
  rw [WellNested, run_joinTexts (fun _ ↦ rfl) (fun _ _ _ ↦ rfl), hrun]

end Clean

end ViewForge.Markup
