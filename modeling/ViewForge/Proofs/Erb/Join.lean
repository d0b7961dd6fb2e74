import ViewForge.Proofs.Erb.Clean

namespace ViewForge.Erb

open Text

/-- Puts a text before a list of tokens, joining it with a text that the list begins with. -/
def consText (t : Text) : List Token → List Token
  | ⟨.text, u⟩ :: r => ⟨.text, t ++ u⟩ :: r
  | r => if t.isEmpty then r else ⟨.text, t⟩ :: r

def joinTexts : List Token → List Token
  | [] => []
  | ⟨.text, t⟩ :: r => consText t (joinTexts r)
  | k :: r => k :: joinTexts r

/-- A piece of a template: text without `<`, or a clean token of another kind. -/
def Token.Loose (k : Token) : Prop := if k.kind = .text then '<' ∉ k.text else k.Clean

theorem consText_cases (t : Text) (ts : List Token) :
    (∃ u r, ts = ⟨.text, u⟩ :: r ∧ consText t ts = ⟨.text, t ++ u⟩ :: r) ∨
    (t = [] ∧ consText t ts = ts) ∨
    (t ≠ [] ∧ (∀ k ∈ ts.head?, k.kind ≠ .text) ∧ consText t ts = ⟨.text, t⟩ :: ts) := by
  fun_cases consText t ts with
  | case1 u r => exact .inl ⟨u, r, rfl, rfl⟩
  | case2 ts hts ht => exact .inr (.inl ⟨List.isEmpty_iff.1 ht, rfl⟩)
  | case3 ts hts ht =>
    refine .inr (.inr ⟨fun h ↦ ht (List.isEmpty_iff.2 h), ?_, rfl⟩)
    intro k hk hkind
    obtain ⟨r, rfl⟩ := List.head?_eq_some_iff.1 hk
    obtain ⟨kind, u⟩ := k
    cases hkind
    exact hts u r rfl

theorem render_consText (t : Text) (ts : List Token) :
    render (consText t ts) = t ++ render ts := by
  rcases consText_cases t ts with ⟨u, r, rfl, h⟩ | ⟨rfl, h⟩ | ⟨-, -, h⟩
  · rw [h]
    simp [render]
  · rw [h, List.nil_append]
  · rw [h]
    simp [render]

theorem render_joinTexts (ts : List Token) : render (joinTexts ts) = render ts := by
  fun_induction joinTexts ts with
  | case1 => rfl
  | case2 t r ih =>
    rw [render_consText, ih]
    simp [render]
  | case3 k r _ ih => simpa [render] using ih

theorem isChain_consText {t : Text} {ts : List Token} (h : ts.IsChain Token.Separate) :
    (consText t ts).IsChain Token.Separate := by
  rcases consText_cases t ts with ⟨u, r, rfl, he⟩ | ⟨rfl, he⟩ | ⟨-, hk, he⟩
  · rw [he]
    cases r with
    | nil => exact .singleton _
    | cons k r =>
      obtain ⟨hsep, hr⟩ := List.isChain_cons_cons.1 h
      exact .cons_cons hsep hr
  · rwa [he]
  · rw [he]
    cases ts with
    | nil => exact .singleton _
    | cons k r => exact .cons_cons (.inr (hk k rfl)) h

theorem isChain_joinTexts (ts : List Token) : (joinTexts ts).IsChain Token.Separate := by
  fun_induction joinTexts ts with
  | case1 => exact .nil
  | case2 t r ih => exact isChain_consText ih
  | case3 k r hk ih =>
    have hkind : k.kind ≠ .text := by
      obtain ⟨kind, t⟩ := k
      rintro rfl
      exact hk t rfl
    cases hj : joinTexts r with
    | nil => exact .singleton _
    | cons k' s => exact .cons_cons (.inl hkind) (hj ▸ ih)

theorem holdsMarkup_of_not_mem {t : Text} (h : '<' ∉ t) : holdsMarkup t = false := by
  induction t with
  | nil => rfl
  | cons c r ih =>
    rw [List.mem_cons, not_or] at h
    have hstart : startsMarkup (c :: r) = false := by
      rw [← Bool.not_eq_true]
      intro hm
      obtain ⟨u, hu⟩ := exists_eq_lt_of_startsMarkup hm
      exact h.1 (List.cons.inj hu).1.symm
    rw [holdsMarkup, hstart, ih h.2]
    rfl

theorem Token.Loose.clean {k : Token} (h : k.Loose) (hne : k.text ≠ []) : k.Clean := by
  obtain ⟨kind, t⟩ := k
  unfold Token.Loose at h
  split at h
  next hk =>
    cases hk
    exact .text hne (holdsMarkup_of_not_mem h)
  next => exact h

theorem loose_consText {t : Text} {ts : List Token} (ht : '<' ∉ t)
    (h : ∀ k ∈ ts, k.Loose ∧ k.text ≠ []) : ∀ k ∈ consText t ts, k.Loose ∧ k.text ≠ [] := by
  rcases consText_cases t ts with ⟨u, r, rfl, he⟩ | ⟨rfl, he⟩ | ⟨hne, -, he⟩
  · rw [he]
    rw [List.forall_mem_cons] at h ⊢
    obtain ⟨⟨hu, hune⟩, hr⟩ := h
    refine ⟨⟨?_, ?_⟩, hr⟩
    · have hu : '<' ∉ u := hu
      exact show '<' ∉ t ++ u by simp [ht, hu]
    · simp [show u ≠ [] from hune]
  · rwa [he]
  · rw [he, List.forall_mem_cons]
    exact ⟨⟨ht, hne⟩, h⟩

theorem loose_joinTexts {ts : List Token} (h : ∀ k ∈ ts, k.Loose) :
    ∀ k ∈ joinTexts ts, k.Loose ∧ k.text ≠ [] := by
  fun_induction joinTexts ts with
  | case1 => exact nofun
  | case2 t r ih =>
    rw [List.forall_mem_cons] at h
    exact loose_consText h.1 (ih h.2)
  | case3 k r hk ih =>
    rw [List.forall_mem_cons] at h ⊢
    refine ⟨⟨h.1, ?_⟩, ih h.2⟩
    have hclean : k.Clean := by
      have hloose := h.1
      obtain ⟨kind, t⟩ := k
      unfold Token.Loose at hloose
      split at hloose
      next hkind =>
        cases hkind
        exact absurd rfl (hk t)
      next => exact hloose
    exact hclean.text_ne_nil

/-- Joining texts leaves the tokens of other kinds as they are. -/
theorem joinTexts_filter {p : Token → Bool} (hp : ∀ t, p ⟨.text, t⟩ = false) (ts : List Token) :
    (joinTexts ts).filter p = ts.filter p := by
  fun_induction joinTexts ts with
  | case1 => rfl
  | case2 t r ih =>
    rw [List.filter_cons_of_neg (Bool.eq_false_iff.1 (hp t)), ← ih]
    rcases consText_cases t (joinTexts r) with ⟨u, us, heq, hcons⟩ | ⟨-, hcons⟩ | ⟨-, -, hcons⟩
    · rw [hcons, heq, List.filter_cons_of_neg (Bool.eq_false_iff.1 (hp _)),
        List.filter_cons_of_neg (Bool.eq_false_iff.1 (hp u))]
    · rw [hcons]
    · rw [hcons, List.filter_cons_of_neg (Bool.eq_false_iff.1 (hp t))]
  | case3 k r _ ih => rw [List.filter_cons, List.filter_cons, ih]

/-- Pieces put together are cut apart again, up to the joining of texts. -/
theorem tokenize_render_of_loose {ts : List Token} (h : ∀ k ∈ ts, k.Loose) :
    tokenize (render ts) = joinTexts ts := by
  have hloose := loose_joinTexts h
  have hclean : ∀ k ∈ joinTexts ts, k.Clean := fun k hk ↦ (hloose k hk).1.clean (hloose k hk).2
  have hcut := tokenize_render_append [] hclean (isChain_joinTexts ts) fun _ _ _ ↦ .inl rfl
  simpa only [List.append_nil, tokenize_nil, render_joinTexts] using hcut

section Run

variable {σ : Type} {step : σ → Token → Option σ} {s s' : σ}

theorem run_cons {k : Token} {ts : List Token} (h : step s k = some s') :
    (k :: ts).foldlM step s = ts.foldlM step s' := by
  rw [List.foldlM_cons, h]
  rfl

theorem run_append {ts us : List Token} (h : ts.foldlM step s = some s') :
    (ts ++ us).foldlM step s = us.foldlM step s' := by
  rw [List.foldlM_append, h]
  rfl

/-- A run that goes through texts piece by piece does not see whether they are joined. -/
theorem run_joinTexts (hnil : ∀ s, step s ⟨.text, []⟩ = some s)
    (happend : ∀ s t u, (step s ⟨.text, t⟩ >>= fun s' ↦ step s' ⟨.text, u⟩) =
      step s ⟨.text, t ++ u⟩)
    (s : σ) (ts : List Token) : (joinTexts ts).foldlM step s = ts.foldlM step s := by
  fun_induction joinTexts ts generalizing s with
  | case1 => rfl
  | case2 t r ih =>
    have hr : (⟨.text, t⟩ :: r : List Token).foldlM step s =
        step s ⟨.text, t⟩ >>= fun s' ↦ (joinTexts r).foldlM step s' := by
      rw [List.foldlM_cons]
      exact congrArg _ (funext fun s' ↦ (ih s').symm)
    rw [hr]
    rcases consText_cases t (joinTexts r) with ⟨u, r', hj, he⟩ | ⟨rfl, he⟩ | ⟨-, -, he⟩
    · rw [he, hj, List.foldlM_cons, ← happend, bind_assoc]
      rfl
    · rw [he, hnil]
      rfl
    · rw [he]
      rfl
  | case3 k r _ ih =>
    rw [List.foldlM_cons, List.foldlM_cons]
    exact congrArg _ (funext ih)

end Run

end ViewForge.Erb
