import ViewForge.Proofs.Erb.Lines
import ViewForge.Proofs.Erb.Nesting

namespace ViewForge.Erb

open Text

section Code

variable {w r t : Text}

theorem joinLinesFrom_length_append (s r : Text) :
    joinLinesFrom s.length (s ++ r) = joinLinesFrom 0 r := by
  induction s with
  | nil => rfl
  | cons c s ih =>
    rw [List.length_cons, List.cons_append, joinLinesFrom]
    exact ih

theorem joinLines_blank_append (hw : IsGap w) (hr : SolidHead r) :
    joinLines (w ++ r) = (if '\n' ∈ w then [' '] else w) ++ joinLines r := by
  obtain ⟨hne, hw⟩ := hw
  induction w with
  | nil => exact absurd rfl hne
  | cons c w ih =>
    rw [joinLines, List.cons_append, joinLinesFrom, ← List.cons_append,
      takeWhile_blank_append hw hr]
    simp only [List.contains_iff_mem]
    split
    · rw [List.length_cons, Nat.add_sub_cancel, joinLinesFrom_length_append]
      rfl
    next hbreak =>
      rw [List.mem_cons, not_or] at hbreak
      rw [List.forall_mem_cons] at hw
      cases w with
      | nil => rfl
      | cons d w =>
        have hrest := ih (List.cons_ne_nil d w) hw.2
        rw [if_neg hbreak.2] at hrest
        rw [← joinLines, hrest]
        rfl

theorem joinLines_gap (hw : IsGap w) : joinLines w = if '\n' ∈ w then [' '] else w := by
  have hself := joinLines_blank_append (r := []) hw nofun
  simpa [joinLines, joinLinesFrom] using hself

theorem respaces_joinLines : Respaces joinLines where
  nil := rfl
  cons hc := by
    rw [joinLines, joinLinesFrom, List.takeWhile_cons_of_neg (by simp [hc])]
    rfl
  gap hw hr := by rw [joinLines_blank_append hw hr, joinLines_gap hw]
  isGap hw := by
    rw [joinLines_gap hw]
    split
    · exact ⟨List.cons_ne_nil _ _, List.forall_mem_singleton.2 rfl⟩
    · exact hw

theorem not_mem_joinLines (t : Text) : '\n' ∉ joinLines t := by
  induction t using gap_induction with
  | nil => exact nofun
  | cons c r hc ih =>
    rw [respaces_joinLines.cons hc, List.mem_cons, not_or]
    refine ⟨?_, ih⟩
    rintro rfl
    cases hc
  | gap w r hw hr ih =>
    rw [joinLines_blank_append hw hr, List.mem_append, not_or]
    refine ⟨?_, ih⟩
    split
    · decide
    next hbreak => exact hbreak

theorem joinLines_eq_self (h : '\n' ∉ t) : joinLines t = t := by
  induction t using gap_induction with
  | nil => rfl
  | cons c r hc ih =>
    rw [respaces_joinLines.cons hc, ih fun hr ↦ h (List.mem_cons_of_mem c hr)]
  | gap w r hw hr ih =>
    rw [List.mem_append, not_or] at h
    rw [joinLines_blank_append hw hr, if_neg h.1, ih h.2]

end Code

section Strings

variable {f : Text → Text} {q : Option Char}

theorem quoteAfter_cons_some {q c : Char} (r : Text) (hc : c ≠ '\\') :
    quoteAfter (some q) (c :: r) = quoteAfter (if c == q then none else some q) r := by
  rw [quoteAfter]
  · exact fun h ↦ absurd h hc
  · exact fun _ _ h ↦ absurd h hc

theorem quoteAfter_plain_append {w : Text} (r : Text) (hq : ∀ c ∈ q, isQuote c = true)
    (hw : ∀ c ∈ w, isQuote c = false ∧ c ≠ '\\') : quoteAfter q (w ++ r) = quoteAfter q r := by
  induction w with
  | nil => rfl
  | cons c w ih =>
    rw [List.forall_mem_cons] at hw
    obtain ⟨⟨hquote, hslash⟩, hw⟩ := hw
    rw [List.cons_append]
    cases q with
    | none =>
      rw [quoteAfter, hquote]
      exact ih hw
    | some d =>
      have hne : (c == d) = false := by
        rw [beq_eq_false_iff_ne]
        rintro rfl
        rw [hq c rfl] at hquote
        cases hquote
      rw [quoteAfter_cons_some _ hslash, hne]
      exact ih hw

theorem quoteAfter_blank_append {w : Text} (r : Text) (hq : ∀ c ∈ q, isQuote c = true)
    (hw : ∀ c ∈ w, isBlank c = true) : quoteAfter q (w ++ r) = quoteAfter q r := by
  refine quoteAfter_plain_append r hq fun c hc ↦ ⟨?_, ne_of_class (hw c hc) (by decide)⟩
  simp only [isQuote, Bool.or_eq_false_iff, beq_eq_false_iff_ne]
  exact ⟨ne_of_class (hw c hc) (by decide), ne_of_class (hw c hc) (by decide)⟩

def QuotesAlike (t t' : Text) : Prop :=
  ∀ q : Option Char, (∀ c ∈ q, isQuote c = true) → quoteAfter q t' = quoteAfter q t

def EscapesAlike (t t' : Text) : Prop :=
  ∀ q, isQuote q = true → quoteAfter (some q) ('\\' :: t') = quoteAfter (some q) ('\\' :: t)

theorem QuotesAlike.escapesAlike {r r' : Text} (h : QuotesAlike r r') (c c' : Char) :
    EscapesAlike (c :: r) (c' :: r') := by
  intro q hq
  rw [quoteAfter, quoteAfter]
  exact h _ fun d hd ↦ by cases hd; exact hq

theorem QuotesAlike.cons {c : Char} {r r' : Text} (h : QuotesAlike r r')
    (hescapes : c = '\\' → EscapesAlike r r') : QuotesAlike (c :: r) (c :: r') := by
  intro q hq
  cases q with
  | none =>
    rw [quoteAfter, quoteAfter]
    refine h _ fun d hd ↦ ?_
    split at hd
    next hquote =>
      cases hd
      exact hquote
    next => cases hd
  | some q =>
    by_cases hslash : c = '\\'
    · rw [hslash]
      exact hescapes hslash q (hq q rfl)
    · rw [quoteAfter_cons_some _ hslash, quoteAfter_cons_some _ hslash]
      refine h _ fun d hd ↦ ?_
      split at hd
      next => cases hd
      next => exact hq d hd

/-- A backslash takes the first character of a stretch of white space, however long that is. -/
theorem quotesAlike_respaced (h : Respaces f) (t : Text) :
    QuotesAlike t (f t) ∧ EscapesAlike t (f t) := by
  induction t using gap_induction with
  | nil =>
    rw [h.nil]
    exact ⟨fun _ _ ↦ rfl, fun _ _ ↦ rfl⟩
  | cons c r hc ih =>
    rw [h.cons hc]
    exact ⟨ih.1.cons fun _ ↦ ih.2, ih.1.escapesAlike c c⟩
  | gap w r hw hr ih =>
    have hfw := h.isGap hw
    rw [h.gap hw hr]
    refine ⟨fun q hq ↦ ?_, fun q hq ↦ ?_⟩
    · rw [quoteAfter_blank_append _ hq hfw.2, quoteAfter_blank_append _ hq hw.2]
      exact ih.1 q hq
    · have hq : ∀ c ∈ some q, isQuote c = true := fun c hc ↦ by cases hc; exact hq
      have hskip : ∀ v s : Text, IsGap v →
          quoteAfter (some q) ('\\' :: (v ++ s)) = quoteAfter (some q) s := by
        intro v s hv
        obtain ⟨c, v, rfl⟩ := List.exists_cons_of_ne_nil hv.1
        rw [List.cons_append, quoteAfter]
        exact quoteAfter_blank_append _ hq fun d hd ↦ hv.2 d (List.mem_cons_of_mem c hd)
      rw [hskip _ _ hfw, hskip _ _ hw]
      exact ih.1 _ hq

theorem CleanCode.respaced {code : Text} (hf : Respaces f) (h : CleanCode code) :
    CleanCode (f code) where
  no_close := fun hin ↦ h.no_close (hf.infix_of_infix (ink_eq_self_iff.1 rfl) hin)
  closed := ((quotesAlike_respaced hf code).1 none nofun).trans h.closed

end Strings

section Text

variable {w r t : Text}

def isIndent (c : Char) : Bool := c == ' ' || c == '\t'

theorem isBlank_of_isIndent (c : Char) (h : isIndent c = true) : isBlank c = true := by
  simp only [isIndent, Bool.or_eq_true, beq_iff_eq] at h
  rcases h with rfl | rfl <;> decide

theorem isBlank_of_isInlineSpace {c : Char} (h : isInlineSpace c = true) : isBlank c = true := by
  simp only [isInlineSpace, Bool.or_eq_true, beq_iff_eq] at h
  rcases h with ((rfl | rfl) | rfl) | rfl <;> decide

theorem shrinkBreaksFrom_length_append (s r : Text) :
    shrinkBreaksFrom s.length (s ++ r) = shrinkBreaksFrom 0 r := by
  induction s with
  | nil => rfl
  | cons c s ih =>
    rw [List.length_cons, List.cons_append, shrinkBreaksFrom]
    exact ih

theorem drop_length_takeWhile (p : Char → Bool) (t : Text) :
    t.drop (t.takeWhile p).length = t.dropWhile p := by
  nth_rewrite 2 [← List.takeWhile_append_dropWhile (p := p) (l := t)]
  rw [List.drop_left]

theorem shrinkBreaks_other {c : Char} (h : ((c :: r).dropWhile isIndent).head? ≠ some '\n') :
    shrinkBreaksFrom 0 (c :: r) = c :: shrinkBreaksFrom 0 r := by
  have hdrop : (c :: r).drop ((c :: r).takeWhile fun d ↦ d == ' ' || d == '\t').length =
      (c :: r).dropWhile isIndent := drop_length_takeWhile _ _
  rw [shrinkBreaksFrom]
  simp only [hdrop]
  split
  next heq => exact absurd (by rw [heq]; rfl) h
  next => rfl

theorem shrinkBreaks_break {c : Char} {after : Text} (hw : ∀ d ∈ c :: w, isBlank d = true)
    (hr : SolidHead r) (h : (c :: w).dropWhile isIndent = '\n' :: after) :
    shrinkBreaksFrom 0 (c :: w ++ r) = '\n' :: shrinkBreaksFrom 0 r := by
  have hdrop : (c :: (w ++ r)).drop
      ((c :: (w ++ r)).takeWhile fun d ↦ d == ' ' || d == '\t').length = '\n' :: (after ++ r) := by
    refine (drop_length_takeWhile _ _).trans ?_
    rw [← List.cons_append]
    exact (dropWhile_append_solid isBlank_of_isIndent hr _).trans (by rw [h]; rfl)
  have hsplit := List.takeWhile_append_dropWhile (p := isIndent) (l := c :: w)
  rw [h] at hsplit
  have hafter : ∀ d ∈ after, isBlank d = true := by
    intro d hd
    refine hw d ?_
    rw [← hsplit]
    exact List.mem_append_right _ (List.mem_cons_of_mem _ hd)
  have hlen : ((c :: (w ++ r)).takeWhile fun d ↦ d == ' ' || d == '\t').length +
      ((after ++ r).takeWhile isBlank).length = w.length := by
    have hindent : (c :: (w ++ r)).takeWhile (fun d ↦ d == ' ' || d == '\t') =
        (c :: w).takeWhile isIndent := takeWhile_append_solid isBlank_of_isIndent hr (c :: w)
    have htotal := congrArg List.length hsplit
    rw [takeWhile_blank_append hafter hr, hindent]
    simp only [List.length_append, List.length_cons] at htotal
    omega
  rw [List.cons_append, shrinkBreaksFrom]
  simp only [hdrop, hlen, shrinkBreaksFrom_length_append]

theorem shrinkBreaks_blank_append (hw : ∀ c ∈ w, isBlank c = true) (hr : SolidHead r) :
    shrinkBreaksFrom 0 (w ++ r) = shrinkBreaksFrom 0 w ++ shrinkBreaksFrom 0 r := by
  induction w with
  | nil => rfl
  | cons c w ih =>
    by_cases hbreak : ((c :: w).dropWhile isIndent).head? = some '\n'
    · obtain ⟨after, hafter⟩ := List.head?_eq_some_iff.1 hbreak
      have halone := shrinkBreaks_break (r := []) hw nofun hafter
      rw [List.append_nil] at halone
      rw [shrinkBreaks_break hw hr hafter, halone]
      rfl
    · have hout : ((c :: (w ++ r)).dropWhile isIndent).head? ≠ some '\n' := by
        rw [← List.cons_append, dropWhile_append_solid isBlank_of_isIndent hr, List.head?_append]
        cases hhead : ((c :: w).dropWhile isIndent).head? with
        | none =>
          intro h
          exact absurd (hr _ h) (by decide)
        | some d => rwa [hhead] at hbreak
      rw [List.forall_mem_cons] at hw
      rw [List.cons_append, shrinkBreaks_other hout, shrinkBreaks_other hbreak, ih hw.2]
      rfl

/-- A stretch that holds a line break is cut after it. -/
theorem shrinkBreaks_gap (hw : ∀ c ∈ w, isBlank c = true) :
    ('\n' ∈ w → ∃ a, (∀ c ∈ a, isBlank c = true) ∧ shrinkBreaksFrom 0 w = a ++ ['\n']) ∧
    ('\n' ∉ w → shrinkBreaksFrom 0 w = w) := by
  induction w with
  | nil => exact ⟨nofun, fun _ ↦ rfl⟩
  | cons c w ih =>
    by_cases hbreak : ((c :: w).dropWhile isIndent).head? = some '\n'
    · obtain ⟨after, hafter⟩ := List.head?_eq_some_iff.1 hbreak
      have hstep := shrinkBreaks_break (r := []) hw nofun hafter
      rw [List.append_nil] at hstep
      refine ⟨fun _ ↦ ⟨[], nofun, hstep⟩, fun hnot ↦ absurd ?_ hnot⟩
      exact (List.dropWhile_suffix isIndent).subset (hafter ▸ List.mem_cons_self)
    · rw [List.forall_mem_cons] at hw
      rw [shrinkBreaks_other hbreak]
      obtain ⟨hin, hout⟩ := ih hw.2
      refine ⟨fun hmem ↦ ?_, fun hnot ↦ ?_⟩
      · have hmem : '\n' ∈ w := by
          rcases List.mem_cons.1 hmem with rfl | hmem
          · exact absurd rfl hbreak
          · exact hmem
        obtain ⟨a, ha, heq⟩ := hin hmem
        refine ⟨c :: a, ?_, by rw [heq]; rfl⟩
        rw [List.forall_mem_cons]
        exact ⟨hw.1, ha⟩
      · rw [List.mem_cons, not_or] at hnot
        rw [hout hnot.2]

theorem respaces_shrinkBreaks : Respaces (shrinkBreaksFrom 0) where
  nil := rfl
  cons := by
    intro c r hc
    have hindent : ¬isIndent c = true := by
      intro h
      rw [isBlank_of_isIndent c h] at hc
      cases hc
    refine shrinkBreaks_other ?_
    rw [List.dropWhile_cons_of_neg hindent]
    rintro ⟨⟩
    cases hc
  gap hw hr := shrinkBreaks_blank_append hw.2 hr
  isGap := by
    intro w hw
    by_cases hbreak : '\n' ∈ w
    · obtain ⟨a, ha, heq⟩ := (shrinkBreaks_gap hw.2).1 hbreak
      rw [heq]
      refine ⟨by simp, ?_⟩
      rw [List.forall_mem_append, List.forall_mem_singleton]
      exact ⟨ha, by decide⟩
    · rwa [(shrinkBreaks_gap hw.2).2 hbreak]

theorem shrinkSpaces_append (hr : SolidHead r) (inRun : Bool) (w : Text) :
    shrinkSpacesFrom inRun (w ++ r) = shrinkSpacesFrom inRun w ++ shrinkSpacesFrom false r := by
  induction w generalizing inRun with
  | nil =>
    cases r with
    | nil => rfl
    | cons c r =>
      have hinline : ¬isInlineSpace c = true := by
        intro h
        have hblank := isBlank_of_isInlineSpace h
        rw [hr c rfl] at hblank
        cases hblank
      simp only [List.nil_append, shrinkSpacesFrom, if_neg hinline]
  | cons c w ih =>
    simp only [List.cons_append, shrinkSpacesFrom, ih]
    split
    · split <;> rfl
    · rfl

theorem isBlank_of_mem_shrinkSpaces {inRun : Bool} (hw : ∀ c ∈ w, isBlank c = true) :
    ∀ c ∈ shrinkSpacesFrom inRun w, isBlank c = true := by
  induction w generalizing inRun with
  | nil => exact nofun
  | cons c w ih =>
    rw [List.forall_mem_cons] at hw
    rw [shrinkSpacesFrom]
    split
    · split
      · exact ih hw.2
      · rw [List.forall_mem_cons]
        exact ⟨by decide, ih hw.2⟩
    · rw [List.forall_mem_cons]
      exact ⟨hw.1, ih hw.2⟩

theorem shrinkSpaces_idempotent (inRun : Bool) (t : Text) :
    shrinkSpacesFrom inRun (shrinkSpacesFrom inRun t) = shrinkSpacesFrom inRun t := by
  induction t generalizing inRun with
  | nil => rfl
  | cons c t ih =>
    by_cases hc : isInlineSpace c = true
    · cases inRun with
      | true => simp only [shrinkSpacesFrom, if_pos hc, if_true, ih]
      | false =>
        simp only [shrinkSpacesFrom, if_pos hc, Bool.false_eq_true, if_false]
        rw [if_pos (by decide), ih]
    · simp only [shrinkSpacesFrom, if_neg hc, ih]

theorem respaces_shrinkSpaces : Respaces (shrinkSpacesFrom false) where
  nil := rfl
  cons := by
    intro c r hc
    have hinline : ¬isInlineSpace c = true := by
      intro h
      rw [isBlank_of_isInlineSpace h] at hc
      cases hc
    rw [shrinkSpacesFrom, if_neg hinline]
  gap _ hr := shrinkSpaces_append hr false _
  isGap := by
    intro w hw
    refine ⟨?_, isBlank_of_mem_shrinkSpaces hw.2⟩
    obtain ⟨c, w, rfl⟩ := List.exists_cons_of_ne_nil hw.1
    rw [shrinkSpacesFrom]
    split <;> exact List.cons_ne_nil _ _

theorem shrinkSpaces_concat_break (inRun : Bool) (t : Text) :
    shrinkSpacesFrom inRun (t ++ ['\n']) = shrinkSpacesFrom inRun t ++ ['\n'] := by
  induction t generalizing inRun with
  | nil => cases inRun <;> rfl
  | cons c t ih =>
    simp only [List.cons_append, shrinkSpacesFrom, ih]
    split
    · split <;> rfl
    · rfl

theorem not_mem_shrinkSpaces {inRun : Bool} (h : '\n' ∉ t) : '\n' ∉ shrinkSpacesFrom inRun t := by
  induction t generalizing inRun with
  | nil => exact h
  | cons c t ih =>
    rw [List.mem_cons, not_or] at h
    rw [shrinkSpacesFrom]
    split
    · split
      · exact ih h.2
      · rw [List.mem_cons, not_or]
        exact ⟨by decide, ih h.2⟩
    · rw [List.mem_cons, not_or]
      exact ⟨h.1, ih h.2⟩

def laidText (t : Text) : Text := squeeze (formatText t)

theorem respaces_laidText : Respaces laidText :=
  respaces_squeeze.comp (respaces_shrinkSpaces.comp respaces_shrinkBreaks)

theorem laidText_gap (hw : IsGap w) :
    laidText w = if '\n' ∈ w then ['\n'] else shrinkSpacesFrom false w := by
  obtain ⟨hin, hout⟩ := shrinkBreaks_gap hw.2
  rw [laidText, formatText]
  split
  next hbreak =>
    obtain ⟨a, ha, heq⟩ := hin hbreak
    rw [heq, shrinkSpaces_concat_break, squeeze_concat_break (isBlank_of_mem_shrinkSpaces ha)]
  next hbreak => rw [hout hbreak, squeeze_eq_self (not_mem_shrinkSpaces hbreak)]

theorem laidText_laidText (t : Text) : laidText (laidText t) = laidText t := by
  refine (respaces_laidText.comp respaces_laidText).ext respaces_laidText (fun w hw ↦ ?_) t
  have hagain := laidText_gap (respaces_laidText.isGap hw)
  rw [Function.comp_apply, hagain, laidText_gap hw]
  by_cases hbreak : '\n' ∈ w
  · rw [if_pos hbreak, if_pos List.mem_cons_self]
  · rw [if_neg hbreak, if_neg (not_mem_shrinkSpaces hbreak), shrinkSpaces_idempotent]

/-- Nothing blank stands after the line break that a finished text begins with. -/
theorem solidHead_of_laidText (h : laidText ('\n' :: t) = '\n' :: t) : SolidHead t := by
  have hgap : IsGap ('\n' :: t.takeWhile isBlank) := by
    refine ⟨List.cons_ne_nil _ _, ?_⟩
    rw [List.forall_mem_cons]
    exact ⟨by decide, fun c hc ↦ List.mem_takeWhile_imp hc⟩
  have hrest := solidHead_trimLeft t
  have hlaid := respaces_laidText.gap hgap hrest
  rw [List.cons_append, List.takeWhile_append_dropWhile, h, laidText_gap hgap,
    if_pos List.mem_cons_self] at hlaid
  rw [(List.cons.inj hlaid).2]
  exact respaces_laidText.solidHead hrest

theorem laidText_dropBreak (h : laidText t = t) : laidText (dropBreak t) = dropBreak t := by
  fun_cases dropBreak t with
  | case1 t =>
    have hbreak : IsGap ['\n'] := ⟨List.cons_ne_nil _ _, List.forall_mem_singleton.2 rfl⟩
    have hlaid := respaces_laidText.gap hbreak (solidHead_of_laidText h)
    rw [List.singleton_append, h] at hlaid
    exact (List.cons.inj hlaid).2.symm
  | case2 => exact h

theorem laidText_trimRight (h : laidText t = t) :
    laidText (trimRight isBlank t ++ ['\n']) = trimRight isBlank t ++ ['\n'] := by
  rw [respaces_laidText.append_solidLast _ (solidLast_trimRight t),
    ← respaces_laidText.trimRight_comm, h]
  rfl

end Text

section Markup

variable {t u p : Text}

theorem holdsMarkup_of_mark (hp : startsMarkup p = true) (h : p <:+: t) :
    holdsMarkup t = true := by
  obtain ⟨a, b, rfl⟩ := h
  induction a with
  | nil =>
    rw [List.nil_append]
    cases p with
    | nil => cases hp
    | cons c p =>
      rw [List.cons_append, holdsMarkup, ← List.cons_append, startsMarkup_append b hp]
      rfl
  | cons c a ih =>
    rw [List.cons_append, List.cons_append, holdsMarkup, ih, Bool.or_true]

theorem isBlank_of_isAsciiLetter {c : Char} (h : isAsciiLetter c = true) : isBlank c = false := by
  obtain ⟨hlow, hhigh⟩ := toNat_of_isAsciiLetter h
  exact isBlank_eq_false (by omega) (by omega)

/-- The marks at which markup begins have no white space in them. -/
theorem exists_mark (h : holdsMarkup t = true) :
    ∃ p, p <:+: t ∧ startsMarkup p = true ∧ ∀ c ∈ p, isBlank c = false := by
  induction t with
  | nil => cases h
  | cons c r ih =>
    rw [holdsMarkup, Bool.or_eq_true] at h
    rcases h with h | h
    · rcases startsMarkup_cases (c :: r) with hs | hs | hs | hs
      · exact ⟨_, (startsWith_iff.1 hs).isInfix, by decide, ink_eq_self_iff.1 rfl⟩
      · exact ⟨_, (startsWith_iff.1 hs).isInfix, by decide, ink_eq_self_iff.1 rfl⟩
      · obtain ⟨d, s, hd, heq | heq⟩ := startsTag_iff.1 hs
        · refine ⟨['<', d], ⟨[], s, heq.symm⟩, ?_, ?_⟩
          · simp [startsMarkup, startsTag_iff.2 ⟨d, [], hd, .inl rfl⟩]
          · simp [isBlank_of_isAsciiLetter hd, show isBlank '<' = false from rfl]
        · refine ⟨['<', '/', d], ⟨[], s, heq.symm⟩, ?_, ?_⟩
          · simp [startsMarkup, startsTag_iff.2 ⟨d, [], hd, .inr rfl⟩]
          · simp [isBlank_of_isAsciiLetter hd, show isBlank '<' = false from rfl,
              show isBlank '/' = false from rfl]
      · exact absurd h hs
    · obtain ⟨p, hin, hp⟩ := ih h
      exact ⟨p, hin.trans (List.suffix_cons c r).isInfix, hp⟩

theorem holdsMarkup_eq_false (ht : holdsMarkup t = false)
    (h : ∀ p, (∀ c ∈ p, isBlank c = false) → p <:+: u → p <:+: t) : holdsMarkup u = false := by
  rw [← Bool.not_eq_true]
  intro hu
  obtain ⟨p, hin, hp, hsolid⟩ := exists_mark hu
  rw [holdsMarkup_of_mark hp (h p hsolid hin)] at ht
  cases ht

end Markup

end ViewForge.Erb
