import ViewForge.Text.Basic

namespace ViewForge.Text

variable {p : Char → Bool} {t : Text}

theorem splitBy_ne_nil (p : Char → Bool) (t : Text) : splitBy p t ≠ [] := by
  fun_cases splitBy p t <;> simp

theorem splitBy_of_none (h : ∀ c ∈ t, p c = false) : splitBy p t = [t] := by
  induction t with
  | nil => rfl
  | cons c t ih =>
    rw [List.forall_mem_cons] at h
    simp [splitBy, ih h.2, h.1]

theorem splitBy_append_cons {a : Text} {d : Char} (r : Text) (h : ∀ c ∈ a, p c = false)
    (hd : p d = true) : splitBy p (a ++ d :: r) = a :: splitBy p r := by
  induction a with
  | nil =>
    obtain ⟨t, ts, hsplit⟩ := List.exists_cons_of_ne_nil (splitBy_ne_nil p r)
    simp [splitBy, hsplit, hd]
  | cons c a ih =>
    rw [List.forall_mem_cons] at h
    simp [splitBy, ih h.2, h.1]

/-- What stands behind the last separator is the end of the last piece. -/
theorem exists_splitBy_append (a : Text) {b : Text} (h : ∀ c ∈ b, p c = false) :
    ∃ init last, splitBy p (a ++ b) = init ++ [last ++ b] := by
  induction a with
  | nil => exact ⟨[], [], splitBy_of_none h⟩
  | cons c a ih =>
    obtain ⟨init, last, hsplit⟩ := ih
    cases init with
    | nil =>
      cases hc : p c with
      | true => exact ⟨[[]], last, by simp [splitBy, hsplit, hc]⟩
      | false => exact ⟨[], c :: last, by simp [splitBy, hsplit, hc]⟩
    | cons s init =>
      cases hc : p c with
      | true => exact ⟨[] :: s :: init, last, by simp [splitBy, hsplit, hc]⟩
      | false => exact ⟨(c :: s) :: init, last, by simp [splitBy, hsplit, hc]⟩

/-- The first piece stands at the front of the text, the others somewhere in it. -/
theorem exists_splitBy_eq_cons (p : Char → Bool) (t : Text) :
    ∃ u us, splitBy p t = u :: us ∧ u <+: t ∧ ∀ s ∈ us, s <:+: t := by
  induction t with
  | nil => exact ⟨[], [], rfl, List.prefix_rfl, nofun⟩
  | cons c r ih =>
    obtain ⟨u, us, hsplit, hu, hus⟩ := ih
    have hlater {s : Text} (hs : s <:+: r) : s <:+: c :: r :=
      hs.trans (List.suffix_cons c r).isInfix
    cases hc : p c with
    | true =>
      refine ⟨[], u :: us, by simp [splitBy, hsplit, hc], List.nil_prefix, ?_⟩
      exact List.forall_mem_cons.2 ⟨hlater hu.isInfix, fun s hs ↦ hlater (hus s hs)⟩
    | false =>
      refine ⟨c :: u, us, by simp [splitBy, hsplit, hc], ?_, fun s hs ↦ hlater (hus s hs)⟩
      exact List.cons_prefix_cons.2 ⟨rfl, hu⟩

theorem isInfix_of_mem_splitOn {sep : Char} {s : Text} (h : s ∈ splitOn sep t) : s <:+: t := by
  obtain ⟨u, us, hsplit, hu, hus⟩ := exists_splitBy_eq_cons (· == sep) t
  rw [splitOn, hsplit] at h
  rcases List.mem_cons.1 h with rfl | h
  · exact hu.isInfix
  · exact hus s h

theorem splitOn_eq (sep : Char) (t : Text) : splitOn sep t = List.splitOn sep t := by
  induction t with
  | nil => rfl
  | cons c r ih =>
    obtain ⟨h, ls, hr⟩ := List.exists_cons_of_ne_nil (splitBy_ne_nil (· == sep) r)
    rw [splitOn] at ih ⊢
    rw [List.splitOn_cons_eq_if_modifyHead, ← ih]
    simp only [splitBy, hr, beq_iff_eq, List.modifyHead_cons]

theorem splitOn_join {sep : Char} {ts : List Text} (h : ∀ t ∈ ts, sep ∉ t) (hne : ts ≠ []) :
    splitOn sep (join [sep] ts) = ts := by
  rw [splitOn_eq]
  exact List.splitOn_intercalate sep h hne

theorem not_mem_of_mem_splitOn {sep : Char} {s : Text} (h : s ∈ splitOn sep t) : sep ∉ s := by
  induction t generalizing s with
  | nil =>
    cases List.mem_singleton.1 h
    exact nofun
  | cons c r ih =>
    obtain ⟨u, us, hr⟩ := List.exists_cons_of_ne_nil (splitBy_ne_nil (· == sep) r)
    rw [splitOn] at ih h
    rw [hr] at ih
    simp only [splitBy, hr, beq_iff_eq] at h
    split at h
    next =>
      rcases List.mem_cons.1 h with rfl | h
      · exact nofun
      · exact ih h
    next hne =>
      rcases List.mem_cons.1 h with rfl | h
      · rw [List.mem_cons, not_or]
        exact ⟨Ne.symm hne, ih List.mem_cons_self⟩
      · exact ih (List.mem_cons_of_mem u h)

theorem splitOnTextFrom_ne_nil (sep : Text) (k : Nat) (t : Text) :
    splitOnTextFrom sep k t ≠ [] := by
  fun_induction splitOnTextFrom sep k t with
  | case1 => exact List.cons_ne_nil _ _
  | case2 k c r ih => exact ih
  | case3 => exact List.cons_ne_nil _ _
  | case4 => exact List.cons_ne_nil _ _
  | case5 => exact List.cons_ne_nil _ _

theorem join_cons {ts : List Text} (sep t : Text) (h : ts ≠ []) :
    join sep (t :: ts) = t ++ sep ++ join sep ts := by
  obtain ⟨u, us, rfl⟩ := List.exists_cons_of_ne_nil h
  rw [join, List.intercalate_cons_cons, join, List.append_assoc]

theorem mem_or_of_mem_join {c : Char} {sep : Text} {ts : List Text} (h : c ∈ join sep ts) :
    c ∈ sep ∨ ∃ t ∈ ts, c ∈ t := by
  induction ts with
  | nil => cases h
  | cons t ts ih =>
    by_cases hts : ts = []
    · subst hts
      rw [join, List.intercalate_singleton] at h
      exact .inr ⟨t, List.mem_singleton_self t, h⟩
    · rw [join_cons sep t hts, List.mem_append, List.mem_append] at h
      rcases h with (h | h) | h
      · exact .inr ⟨t, List.mem_cons_self, h⟩
      · exact .inl h
      · rcases ih h with h | ⟨u, hu, h⟩
        · exact .inl h
        · exact .inr ⟨u, List.mem_cons_of_mem t hu, h⟩

theorem not_mem_join {c : Char} {sep : Text} {ts : List Text} (hsep : c ∉ sep)
    (h : ∀ t ∈ ts, c ∉ t) : c ∉ join sep ts := by
  intro hmem
  rcases mem_or_of_mem_join hmem with hmem | ⟨t, ht, hmem⟩
  · exact hsep hmem
  · exact h t ht hmem

theorem mem_join {c : Char} {sep : Text} {ts : List Text} (ht : t ∈ ts) (hc : c ∈ t) :
    c ∈ join sep ts := by
  induction ts with
  | nil => cases ht
  | cons u ts ih =>
    by_cases hts : ts = []
    · subst hts
      rw [List.mem_singleton.1 ht] at hc
      rwa [join, List.intercalate_singleton]
    · rw [join_cons sep u hts, List.mem_append, List.mem_append]
      rcases List.mem_cons.1 ht with rfl | ht
      · exact .inl (.inl hc)
      · exact .inr (ih ht)

theorem join_splitOnTextFrom {sep : Text} (hsep : sep ≠ []) (k : Nat) (t : Text) :
    join sep (splitOnTextFrom sep k t) = t.drop k := by
  fun_induction splitOnTextFrom sep k t with
  | case1 k => rw [List.drop_nil]; rfl
  | case2 k c r ih => rw [ih, List.drop_succ_cons]
  | case3 c r hpre ih =>
    obtain ⟨u, hu⟩ := List.isPrefixOf_iff_prefix.1 hpre
    have hdrop : r.drop (sep.length - 1) = u := by
      obtain ⟨d, sep, rfl⟩ := List.exists_cons_of_ne_nil hsep
      obtain ⟨-, rfl⟩ := List.cons.inj hu
      exact List.drop_left
    rw [join_cons _ _ (splitOnTextFrom_ne_nil _ _ _), ih, hdrop, List.nil_append, hu,
      List.drop_zero]
  | case4 c r hpre hnil ih => exact absurd hnil (splitOnTextFrom_ne_nil _ _ _)
  | case5 c r hpre s ss hrest ih =>
    rw [List.drop_zero, hrest] at ih
    rw [List.drop_zero, ← ih]
    cases ss with
    | nil => simp [join]
    | cons s' ss => simp [join, List.intercalate_cons_cons]

theorem splitOnTextFrom_length_append (sep t r : Text) :
    splitOnTextFrom sep t.length (t ++ r) = splitOnTextFrom sep 0 r := by
  induction t with
  | nil => rfl
  | cons c t ih => exact ih

theorem replace_append {pat : Text} (hpat : pat ≠ []) (new r : Text) :
    replace pat new (pat ++ r) = new ++ replace pat new r := by
  obtain ⟨c, pat', rfl⟩ := List.exists_cons_of_ne_nil hpat
  have hpre : (c :: pat').isPrefixOf (c :: (pat' ++ r)) = true :=
    List.isPrefixOf_iff_prefix.2 (List.prefix_append (c :: pat') r)
  have hskip := splitOnTextFrom_length_append (c :: pat') pat' r
  rw [replace, splitOnText, List.cons_append, splitOnTextFrom, if_pos hpre, List.length_cons,
    Nat.add_sub_cancel, hskip, join_cons _ _ (splitOnTextFrom_ne_nil _ _ _), List.nil_append]
  rfl

theorem replace_plain {pat new r : Text} {c : Char} (h : ¬pat <+: c :: r) :
    replace pat new (c :: r) = c :: replace pat new r := by
  have hpre : pat.isPrefixOf (c :: r) = false := by
    rwa [← Bool.not_eq_true, List.isPrefixOf_iff_prefix]
  obtain ⟨s, ss, hsplit⟩ := List.exists_cons_of_ne_nil (splitOnTextFrom_ne_nil pat 0 r)
  rw [replace, replace, splitOnText, splitOnText, splitOnTextFrom, hpre, hsplit]
  cases ss <;> simp [join]

theorem breakOn_eq_some {pat t a b : Text} (h : breakOn pat t = some (a, b)) :
    t = a ++ pat ++ b := by
  induction t generalizing a with
  | nil =>
    rw [breakOn] at h
    split at h
    next hpat =>
      cases h
      rw [List.isEmpty_iff.1 hpat]
      rfl
    next => cases h
  | cons c t ih =>
    rw [breakOn] at h
    split at h
    next hpat =>
      cases h
      obtain ⟨u, hu⟩ := List.isPrefixOf_iff_prefix.1 hpat
      rw [← hu, List.nil_append, List.drop_left]
    next =>
      obtain ⟨⟨a', b'⟩, hbreak, hpair⟩ := Option.map_eq_some_iff.1 h
      cases hpair
      rw [ih hbreak]
      rfl

/-- What stands before the first occurrence does not hold another. -/
theorem not_infix_of_breakOn {pat t a b : Text} (hpat : pat ≠ [])
    (h : breakOn pat t = some (a, b)) : ¬pat <:+: a := by
  induction t generalizing a with
  | nil =>
    rw [breakOn, if_neg (by simpa using hpat)] at h
    cases h
  | cons c t ih =>
    rw [breakOn] at h
    split at h
    next =>
      cases h
      exact fun hin ↦ hpat (List.infix_nil.1 hin)
    next hpre =>
      obtain ⟨⟨a', b'⟩, hbreak, hpair⟩ := Option.map_eq_some_iff.1 h
      cases hpair
      intro hin
      rcases List.infix_cons_iff.1 hin with hstart | hin
      · refine hpre (List.isPrefixOf_iff_prefix.2 (hstart.trans ?_))
        rw [breakOn_eq_some hbreak, List.append_assoc]
        exact List.prefix_append (c :: a') _
      · exact ih hbreak hin

end ViewForge.Text
