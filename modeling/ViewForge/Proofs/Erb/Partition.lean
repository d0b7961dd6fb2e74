import ViewForge.Proofs.Erb.Scan

namespace ViewForge.Erb

open Text

def holdsMarkup : Text → Bool
  | [] => false
  | c :: r => startsMarkup (c :: r) || holdsMarkup r

namespace Token

def isTerminated (token : Token) : Bool :=
  match token.kind with
  | .text => true
  | .openTag | .closeTag => endsWith token.text ">"
  | .htmlComment => endsWith token.text "-->"
  | .comment | .output | .code => endsWith token.text "%>"

def Separate (a b : Token) : Prop := a.kind ≠ .text ∨ b.kind ≠ .text

end Token

theorem tokenizeFrom_eq_drop (k : Nat) (t : Text) :
    tokenizeFrom k t = tokenizeFrom 0 (t.drop k) := by
  induction t generalizing k with
  | nil => simp [tokenizeFrom]
  | cons c r ih =>
    cases k with
    | zero => rfl
    | succ k =>
      rw [tokenizeFrom, List.drop_succ_cons]
      exact ih k

def firstToken (t : Text) : Token := ⟨(lexeme t).1, t.take (lexeme t).2⟩

def afterFirst (t : Text) : Text := t.drop (lexeme t).2

@[simp] theorem tokenize_nil : tokenize [] = [] := rfl

variable {t : Text}

theorem tokenize_of_ne_nil (h : t ≠ []) : tokenize t = firstToken t :: tokenize (afterFirst t) := by
  obtain ⟨c, r, rfl⟩ := List.exists_cons_of_ne_nil h
  have hpos := lexeme_length_pos (c :: r)
  have hdrop : afterFirst (c :: r) = r.drop ((lexeme (c :: r)).2 - 1) := by
    obtain ⟨n, hn⟩ := Nat.exists_eq_succ_of_ne_zero hpos.ne'
    rw [afterFirst, hn]
    rfl
  have hstep : tokenize (c :: r) =
      firstToken (c :: r) :: tokenizeFrom ((lexeme (c :: r)).2 - 1) r := rfl
  rw [hstep, tokenizeFrom_eq_drop, hdrop]
  rfl

theorem firstToken_append_afterFirst (t : Text) : (firstToken t).text ++ afterFirst t = t :=
  List.take_append_drop _ t

theorem firstToken_text_length (h : t ≠ []) : (firstToken t).text.length = (lexeme t).2 := by
  rw [firstToken, List.length_take, Nat.min_eq_left (lexeme_length_le h)]

theorem firstToken_text_ne_nil (h : t ≠ []) : (firstToken t).text ≠ [] := by
  rw [← List.length_pos_iff, firstToken_text_length h]
  exact lexeme_length_pos t

theorem afterFirst_length_lt (h : t ≠ []) : (afterFirst t).length < t.length := by
  have hpos := lexeme_length_pos t
  have ht := List.length_pos_iff.2 h
  rw [afterFirst, List.length_drop]
  omega

/-- What holds after every token, going from the end of a template to its beginning, holds of
the template. -/
theorem token_induction {P : Text → Prop} (nil : P [])
    (step : ∀ t, t ≠ [] → P (afterFirst t) → P t) (t : Text) : P t := by
  induction hn : t.length using Nat.strong_induction_on generalizing t with
  | _ n ih =>
    by_cases h : t = []
    · exact h ▸ nil
    · exact step t h (ih _ (hn ▸ afterFirst_length_lt h) _ rfl)

theorem tokenize_firstToken (h : t ≠ []) : tokenize (firstToken t).text = [firstToken t] := by
  have hne := firstToken_text_ne_nil h
  have hsame : lexeme (firstToken t).text = lexeme t := by
    have hlex := lexeme_append (b := afterFirst t) hne
    rw [firstToken_append_afterFirst] at hlex
    exact hlex (firstToken_text_length h).symm
  have hlen : (lexeme (firstToken t).text).2 = (firstToken t).text.length := by
    rw [hsame, firstToken_text_length h]
  have hfirst : firstToken (firstToken t).text = firstToken t := by
    rw [firstToken, hlen, List.take_length, hsame]
    rfl
  have hrest : afterFirst (firstToken t).text = [] := by
    rw [afterFirst, hlen, List.drop_length]
  rw [tokenize_of_ne_nil hne, hfirst, hrest, tokenize_nil]

theorem afterFirst_eq_nil_of_length_le (h : t.length ≤ (lexeme t).2) : afterFirst t = [] :=
  List.drop_eq_nil_of_le h

theorem directiveKind_cases (t : Text) :
    directiveKind t = .comment ∨ directiveKind t = .output ∨ directiveKind t = .code := by
  unfold directiveKind
  split <;> simp

theorem firstToken_kind_ne_text (h : startsMarkup t = true) : (firstToken t).kind ≠ .text := by
  rcases startsMarkup_cases t with hs | hs | hs | hs
  · rw [firstToken, lexeme_of_directive hs]
    rcases directiveKind_cases t with hk | hk | hk <;> rw [hk] <;> exact nofun
  · rw [firstToken, lexeme_of_htmlComment hs]
    exact nofun
  · rw [firstToken, lexeme_of_tag hs]
    split <;> exact nofun
  · exact absurd h hs

theorem not_startsMarkup_of_kind (h : (firstToken t).kind = .text) : ¬startsMarkup t = true :=
  fun hm ↦ firstToken_kind_ne_text hm h

theorem holdsMarkup_of_textLength (h : textLength t = t.length) : holdsMarkup t = false := by
  induction t with
  | nil => rfl
  | cons c r ih =>
    rw [textLength] at h
    split at h
    next => simp at h
    next hm =>
      rw [Bool.not_eq_true] at hm
      rw [holdsMarkup, hm, Bool.false_or]
      exact ih (by simpa using h)

theorem holdsMarkup_firstToken (h : t ≠ []) (hk : (firstToken t).kind = .text) :
    holdsMarkup (firstToken t).text = false := by
  have hm := not_startsMarkup_of_kind hk
  obtain ⟨c, r, rfl⟩ := List.exists_cons_of_ne_nil h
  have htext : (firstToken (c :: r)).text = c :: r.take (textLength r) := by
    rw [firstToken, lexeme_of_text hm]
    rfl
  have hfirst : startsMarkup (c :: r.take (textLength r)) = false := by
    rw [← Bool.not_eq_true]
    intro hin
    have hout := startsMarkup_append (r.drop (textLength r)) hin
    rw [List.cons_append, List.take_append_drop] at hout
    exact hm hout
  have hrest : textLength (r.take (textLength r)) = (r.take (textLength r)).length := by
    apply textLength_append (b := r.drop (textLength r))
    rw [List.take_append_drop, List.length_take]
    exact Nat.min_le_left _ _
  rw [htext, holdsMarkup, hfirst, Bool.false_or]
  exact holdsMarkup_of_textLength hrest

theorem startsMarkup_afterFirst (h : t ≠ []) (hk : (firstToken t).kind = .text)
    (hrest : afterFirst t ≠ []) : startsMarkup (afterFirst t) = true := by
  have hm := not_startsMarkup_of_kind hk
  obtain ⟨c, r, rfl⟩ := List.exists_cons_of_ne_nil h
  have hafter : afterFirst (c :: r) = r.drop (textLength r) := by
    rw [afterFirst, lexeme_of_text hm]
    rfl
  rw [hafter] at hrest ⊢
  apply startsMarkup_drop_textLength
  by_contra hge
  exact hrest (List.drop_eq_nil_of_le (Nat.le_of_not_lt hge))

theorem suffix_take_add {pat : Text} {k n : Nat} (h : pat <:+ (t.drop k).take n) :
    pat <:+ t.take (n + k) := by
  rw [Nat.add_comm, List.take_add]
  exact h.trans (List.suffix_append _ _)

theorem isTerminated_firstToken (hrest : afterFirst t ≠ []) :
    (firstToken t).isTerminated = true := by
  have hlt : (lexeme t).2 < t.length := by
    by_contra hge
    exact hrest (afterFirst_eq_nil_of_length_le (Nat.le_of_not_lt hge))
  rcases startsMarkup_cases t with hs | hs | hs | hs
  · rw [lexeme_of_directive hs] at hlt
    obtain ⟨n, hn, hlen⟩ := closing_of_lt hlt
    have hend := suffix_take_add (suffix_take_of_closing hn)
    rw [← hlen, ← endsWith_iff] at hend
    rw [firstToken, lexeme_of_directive hs]
    rcases directiveKind_cases t with hk | hk | hk <;> rw [hk] <;> exact hend
  · rw [lexeme_of_htmlComment hs] at hlt
    obtain ⟨n, hn, hlen⟩ := lengthThrough_of_lt hlt
    have hend := suffix_take_add (suffix_take_of_lengthThrough hn)
    rw [← hlen, ← endsWith_iff] at hend
    rw [firstToken, lexeme_of_htmlComment hs]
    exact hend
  · rw [lexeme_of_tag hs] at hlt
    have hend : (">" : Text) <:+ t.take (tagLength 0 none (t.drop 1) + 1) :=
      suffix_take_add (suffix_take_tagLength (by rw [List.length_drop]; simp only at hlt; omega))
    rw [← endsWith_iff] at hend
    rw [firstToken, lexeme_of_tag hs]
    split <;> exact hend
  · rw [firstToken, lexeme_of_text hs]
    rfl

theorem render_tokenize (t : Text) : render (tokenize t) = t := by
  induction t using token_induction with
  | nil => rfl
  | step t h ih =>
    rw [tokenize_of_ne_nil h, render, List.flatMap_cons, ← render, ih]
    exact firstToken_append_afterFirst t

theorem tokenize_isChain (t : Text) : (tokenize t).IsChain Token.Separate := by
  induction t using token_induction with
  | nil => exact .nil
  | step t h ih =>
    rw [tokenize_of_ne_nil h]
    by_cases hrest : afterFirst t = []
    · rw [hrest]
      exact .singleton _
    · rw [tokenize_of_ne_nil hrest] at ih ⊢
      refine .cons_cons ?_ ih
      by_cases hk : (firstToken t).kind = .text
      · exact .inr (firstToken_kind_ne_text (startsMarkup_afterFirst h hk hrest))
      · exact .inl hk

theorem forall_mem_tokenize {P : Token → Prop} (hP : ∀ t, t ≠ [] → P (firstToken t)) (t : Text) :
    ∀ k ∈ tokenize t, P k := by
  induction t using token_induction with
  | nil => exact nofun
  | step t h ih =>
    rw [tokenize_of_ne_nil h, List.forall_mem_cons]
    exact ⟨hP t h, ih⟩

theorem isTerminated_of_mem_dropLast (t : Text) :
    ∀ k ∈ (tokenize t).dropLast, k.isTerminated = true := by
  induction t using token_induction with
  | nil => exact nofun
  | step t h ih =>
    rw [tokenize_of_ne_nil h]
    by_cases hrest : afterFirst t = []
    · rw [hrest]
      exact nofun
    · rw [tokenize_of_ne_nil hrest] at ih ⊢
      rw [List.dropLast_cons_cons, List.forall_mem_cons]
      exact ⟨isTerminated_firstToken hrest, ih⟩

/-- Every text, well formed or not, is cut into tokens that concatenate to it: none is empty, no
two texts are adjacent, text holds no markup, all tokens but the last are terminated, and each
token by itself is cut into that one token. -/
theorem tokenize_partition (t : Text) :
    render (tokenize t) = t ∧
    (∀ k ∈ tokenize t, k.text ≠ []) ∧
    (tokenize t).IsChain Token.Separate ∧
    (∀ k ∈ tokenize t, k.kind = .text → holdsMarkup k.text = false) ∧
    (∀ k ∈ (tokenize t).dropLast, k.isTerminated = true) ∧
    ∀ k ∈ tokenize t, tokenize k.text = [k] :=
  ⟨render_tokenize t,
    forall_mem_tokenize (fun _ h ↦ firstToken_text_ne_nil h) t,
    tokenize_isChain t,
    forall_mem_tokenize (fun _ h ↦ holdsMarkup_firstToken h) t,
    isTerminated_of_mem_dropLast t,
    forall_mem_tokenize (fun _ h ↦ tokenize_firstToken h) t⟩

end ViewForge.Erb
