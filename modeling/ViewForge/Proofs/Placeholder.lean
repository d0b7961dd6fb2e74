import ViewForge.Proofs.Markup.Accounting

namespace ViewForge.Placeholder

open Text Erb Markup

/-- Somewhere in a reason an odd run of three dashes or more stands before a `>`. -/
def ClosesEarly (reason : Text) : Prop :=
  ∃ before after k, reason = before ++ List.replicate (2 * k + 3) '-' ++ '>' :: after ∧
    before.getLast? ≠ some '-'

section Dashes

variable {a b r : Text}

/-- Dashes are paired from the left, so a text without a dash at its end is spaced by itself. -/
theorem spaced_append (b : Text) (h : a.getLast? ≠ some '-') :
    spaced (a ++ b) = spaced a ++ spaced b := by
  fun_induction spaced a with
  | case1 => rfl
  | case2 r ih =>
    have hr : r.getLast? ≠ some '-' := by
      cases r with
      | nil => exact absurd rfl h
      | cons c r => exact h
    rw [List.cons_append, List.cons_append, spaced, ih hr]
    rfl
  | case3 c r hc ih =>
    have hr : r.getLast? ≠ some '-' := by
      cases r with
      | nil => exact nofun
      | cons d r => exact h
    rw [List.cons_append, spaced, ih hr]
    · rfl
    · rintro s rfl hs
      cases r with
      | nil => exact h rfl
      | cons d r =>
        obtain ⟨rfl, -⟩ := List.cons.inj hs
        exact hc r rfl rfl

theorem spaced_replicate_append (k : Nat) (t : Text) :
    spaced (List.replicate (2 * k) '-' ++ t) =
      (List.replicate k ['-', ' ', '-']).flatten ++ spaced t := by
  induction k with
  | zero => rfl
  | succ k ih =>
    have hpair : List.replicate (2 * (k + 1)) '-' = '-' :: '-' :: List.replicate (2 * k) '-' := rfl
    rw [hpair, List.cons_append, List.cons_append, spaced, ih, List.replicate_succ,
      List.flatten_cons, List.append_assoc]
    rfl

theorem ClosesEarly.infix_spaced (h : ClosesEarly r) : ("-->" : Text) <:+: spaced r := by
  obtain ⟨before, after, k, rfl, hbefore⟩ := h
  have hrun : List.replicate (2 * k + 3) '-' ++ '>' :: after =
      List.replicate (2 * k) '-' ++ '-' :: '-' :: '-' :: '>' :: after := by
    rw [List.replicate_add, List.append_assoc]
    rfl
  have hend : spaced ('-' :: '-' :: '-' :: '>' :: after) =
      ['-', ' '] ++ "-->" ++ spaced after := rfl
  rw [List.append_assoc, hrun, spaced_append _ hbefore, spaced_replicate_append, hend]
  refine ⟨spaced before ++ ((List.replicate k ['-', ' ', '-']).flatten ++ ['-', ' ']),
    spaced after, ?_⟩
  simp only [List.append_assoc]

/-- More text in front lengthens the run at most by a pair of dashes. -/
theorem ClosesEarly.cons_cons (h : ClosesEarly r) : ClosesEarly ('-' :: '-' :: r) := by
  obtain ⟨before, after, k, rfl, hbefore⟩ := h
  cases before with
  | nil => exact ⟨[], after, k + 1, rfl, hbefore⟩
  | cons c before => exact ⟨'-' :: '-' :: c :: before, after, k, rfl, hbefore⟩

theorem ClosesEarly.cons {c : Char} (hc : ∀ s, c = '-' → r = '-' :: s → False)
    (h : ClosesEarly r) : ClosesEarly (c :: r) := by
  obtain ⟨before, after, k, rfl, hbefore⟩ := h
  cases before with
  | nil =>
    refine ⟨[c], after, k, rfl, fun hlast ↦ ?_⟩
    exact hc _ (Option.some.inj hlast) rfl
  | cons d before => exact ⟨c :: d :: before, after, k, rfl, hbefore⟩

theorem prefix_spaced_iff : ("->" : Text) <+: spaced r ↔ ("->" : Text) <+: r := by
  change ['-', '>'] <+: _ ↔ ['-', '>'] <+: _
  fun_cases spaced r with
  | case1 => rfl
  | case2 r => simp [List.cons_prefix_cons]
  | case3 c r hc =>
    rw [List.cons_prefix_cons, List.cons_prefix_cons]
    refine and_congr_right fun _ ↦ ?_
    have hhead (t : Text) : ['>'] <+: t ↔ t.head? = some '>' := by
      cases t <;> simp [List.cons_prefix_cons, eq_comm]
    rw [hhead, hhead, head?_spaced]

theorem closesEarly_of_spaced (h : ("-->" : Text) <:+: spaced r) : ClosesEarly r := by
  fun_induction spaced r with
  | case1 => exact absurd h (by decide)
  | case2 r ih =>
    -- The second dash of a pair is the only one that another can follow.
    rcases List.infix_cons_iff.1 h with hstart | h
    · exact absurd (List.cons_prefix_cons.1 (List.cons_prefix_cons.1 hstart).2).1 (by decide)
    rcases List.infix_cons_iff.1 h with hstart | h
    · exact absurd (List.cons_prefix_cons.1 hstart).1 (by decide)
    rcases List.infix_cons_iff.1 h with hstart | h
    · obtain ⟨after, rfl⟩ := prefix_spaced_iff.1 (List.cons_prefix_cons.1 hstart).2
      exact ⟨[], after, 0, rfl, (Option.some_ne_none '-').symm⟩
    · exact (ih h).cons_cons
  | case3 c r hc ih =>
    rcases List.infix_cons_iff.1 h with hstart | h
    · obtain ⟨rfl, hdash⟩ := List.cons_prefix_cons.1 hstart
      obtain ⟨s, rfl⟩ := prefix_spaced_iff.1 hdash
      exact absurd rfl (hc _ rfl)
    · exact (ih h).cons hc

/-- The mark that ends a comment is left in a reason by odd runs of dashes, and by nothing else. -/
theorem infix_spaced_iff (reason : Text) :
    ("-->" : Text) <:+: spaced reason ↔ ClosesEarly reason :=
  ⟨closesEarly_of_spaced, ClosesEarly.infix_spaced⟩

end Dashes

/-- A mark in the reason ends the token before the comment ends. -/
theorem length_firstToken_comment_lt {reason : Text} (h : ("-->" : Text) <:+: spaced reason)
    (rest : Text) :
    (firstToken (comment reason ++ rest)).text.length < (comment reason).length := by
  have hshape : comment reason ++ rest =
      "<!--" ++ (" TODO: " ++ spaced reason ++ (" -->" ++ rest)) := by
    rw [comment_append]
    simp
  have hlength : (comment reason).length = 4 + (" TODO: " ++ spaced reason).length + 4 := by
    have happend := congrArg List.length (comment_append reason [])
    simp at happend ⊢
    omega
  have hfound : lengthThrough "-->" (" TODO: " ++ spaced reason) ≠ none := by
    rw [Ne, lengthThrough_eq_none_iff dashClose_ne_nil, not_not]
    exact h.trans (List.suffix_append _ _).isInfix
  obtain ⟨n, hn⟩ := Option.ne_none_iff_exists'.1 hfound
  have hle := (lengthThrough_bounds hn).2
  have hlong := ((lengthThrough_append_iff dashClose_ne_nil (b := " -->" ++ rest)).2 hn).1
  have hlexeme : lexeme (comment reason ++ rest) = (.htmlComment, n + 4) := by
    have hstart : startsHtmlComment (comment reason ++ rest) = true := by
      rw [hshape]
      rfl
    have hdrop : (comment reason ++ rest).drop 4 =
        " TODO: " ++ spaced reason ++ (" -->" ++ rest) := by
      rw [hshape]
      rfl
    rw [lexeme_of_htmlComment hstart, htmlCommentLength, hdrop, hlong]
  rw [firstToken, hlexeme, List.length_take, hlength]
  omega

theorem count_comment (reason : Text) : count (comment reason) = 1 := by
  obtain ⟨ends, heq, hends⟩ := marks_comment reason []
  have hall : placeholders (comment reason) = ends := by
    rw [List.append_nil] at heq
    exact heq.trans (List.append_nil ends)
  rw [← length_placeholders, hall, ← hends.length_eq]
  rfl

/-- Whatever stands after it, a comment is the token that a template begins with unless an odd run
of dashes closes it early; and it is one placeholder in either case. -/
theorem head?_tokenize_comment (reason rest : Text) :
    ((tokenize (comment reason ++ rest)).head? = some ⟨.htmlComment, comment reason⟩ ↔
      ¬ClosesEarly reason) ∧
    count (comment reason) = 1 := by
  refine ⟨?_, count_comment reason⟩
  rw [← infix_spaced_iff]
  constructor
  · intro hhead hin
    have hne : comment reason ++ rest ≠ [] := List.cons_ne_nil _ _
    rw [tokenize_of_ne_nil hne, List.head?_cons, Option.some.injEq] at hhead
    have hlt := length_firstToken_comment_lt hin rest
    rw [hhead] at hlt
    exact lt_irrefl _ hlt
  · intro hclean
    rw [(clean_comment hclean).tokenize_append rest nofun]
    rfl

/-- Three dashes and a `>` end the comment, and the rest of the reason is shown. -/
theorem tokenize_comment_arrow :
    comment "a ---> b" = "<!-- TODO: a - --> b -->" ∧
    tokenize (comment "a ---> b") =
      [⟨.htmlComment, "<!-- TODO: a - -->"⟩, ⟨.text, " b -->"⟩] := by
  decide +kernel

end ViewForge.Placeholder
