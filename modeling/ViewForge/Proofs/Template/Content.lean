import ViewForge.Proofs.Erb.DirectiveLayout
import ViewForge.Proofs.Template.Children

namespace ViewForge.Template

open Text Erb Markup

section Code

variable {q : Option Char} {a b d r s : Text}

/-- The scan of code finds an end in `b`, or it comes to a `<` behind `b` in a string or in none. -/
def Reaches (q : Option Char) (b : Text) : Prop :=
  (∃ n, codeLength q b = some n) ∨
  ∃ q' : Option Char, (∀ c ∈ q', isQuote c = true) ∧
    ∀ t, codeLength q (b ++ '<' :: t) = (codeLength q' ('<' :: t)).map (· + b.length)

theorem Reaches.pass {q' : Option Char} {b' : Text} {k : Nat} (h : Reaches q b)
    (hlen : b'.length = b.length + k) (hin : codeLength q' b' = (codeLength q b).map (· + k))
    (hout : ∀ t, codeLength q' (b' ++ '<' :: t) = (codeLength q (b ++ '<' :: t)).map (· + k)) :
    Reaches q' b' := by
  rcases h with ⟨n, hn⟩ | ⟨q'', hq, hgo⟩
  · exact .inl ⟨n + k, by rw [hin, hn]; rfl⟩
  · refine .inr ⟨q'', hq, fun t ↦ ?_⟩
    rw [hout, hgo, Option.map_map, hlen]
    congr 1
    funext n
    exact Nat.add_assoc n _ k

theorem codeLength_cons_some {c d : Char} (r : Text) (hc : c ≠ '\\') :
    codeLength (some d) (c :: r) =
      (codeLength (if c == d then none else some d) r).map (· + 1) := by
  rw [codeLength]
  · exact fun h ↦ absurd h hc
  · exact fun _ _ h ↦ absurd h hc

/-- A `<` is passed in the same way whether a backslash stands before it or not. -/
theorem reaches (hq : ∀ c ∈ q, isQuote c = true) (b : Text) : Reaches q b := by
  fun_induction codeLength q b with
  | case1 q => exact .inr ⟨q, hq, fun t ↦ Option.map_id'.symm⟩
  | case2 q =>
    refine .inr ⟨some q, hq, fun t ↦ ?_⟩
    have hlt : ('<' == q) = false := by
      rw [beq_eq_false_iff_ne]
      rintro rfl
      exact absurd (hq '<' rfl) (by decide)
    rw [List.cons_append, List.nil_append, codeLength, codeLength_cons_some t (by decide), hlt,
      Option.map_map]
    rfl
  | case3 q c r ih => exact (ih hq).pass rfl rfl fun t ↦ rfl
  | case4 q c r h₁ h₂ ih =>
    have hslash : c ≠ '\\' := by
      cases r with
      | nil => exact fun h ↦ h₁ h rfl
      | cons e r => exact fun h ↦ h₂ e r h rfl
    refine (ih fun d hd ↦ ?_).pass rfl (codeLength_cons_some r hslash)
      fun t ↦ codeLength_cons_some (r ++ '<' :: t) hslash
    split at hd
    · cases hd
    · exact hq d hd
  | case5 c r hquote ih =>
    refine (ih fun d hd ↦ by cases hd; exact hquote).pass rfl ?_ fun t ↦ ?_
    · rw [codeLength, if_pos hquote]
    · rw [List.cons_append, codeLength, if_pos hquote]
  | case6 c r hquote hend => exact .inl ⟨2, by rw [codeLength, if_neg hquote, if_pos hend]⟩
  | case7 c r hquote hend ih =>
    refine (ih (by simp)).pass rfl ?_ fun t ↦ ?_
    · rw [codeLength, if_neg hquote, if_neg hend]
    · have hout : ¬startsWith (c :: (r ++ '<' :: t)) "%>" = true := by
        intro hstart
        cases r with
        | nil =>
          obtain ⟨u, hu⟩ := startsWith_iff.1 hstart
          exact absurd (List.cons.inj (List.cons.inj hu).2).1 (by decide)
        | cons d r => exact hend (startsWith_of_append (t := c :: d :: r) hstart (by simp))
      rw [List.cons_append, codeLength, if_neg hquote, if_neg hout]

/-- No quote and no backslash: the scan of a string goes past such a character. -/
def isStringless (c : Char) : Bool := !isQuote c && c != '\\'

section Stringless

variable (hd : ∀ c ∈ d, isStringless c = true)

include hd

theorem codeLength_string {c : Char} (r : Text) (hc : isQuote c = true) :
    codeLength (some c) (d ++ r) = (codeLength (some c) r).map (· + d.length) := by
  induction d with
  | nil => exact Option.map_id'.symm
  | cons e d ih =>
    rw [List.forall_mem_cons] at hd
    have hclose : (e == c) = false := by
      rw [beq_eq_false_iff_ne]
      rintro rfl
      rw [isStringless, hc] at hd
      cases hd.1
    rw [List.cons_append, codeLength_cons_some _ (ne_of_class hd.1 (by decide)), hclose,
      if_neg Bool.false_ne_true, ih hd.2, Option.map_map]
    rfl

theorem codeLength_ne_none (r : Text) (hclose : ("%>" : Text) <:+: d) :
    codeLength none (d ++ r) ≠ none := by
  induction d with
  | nil => exact absurd hclose (by decide)
  | cons c d ih =>
    rw [List.forall_mem_cons] at hd
    have hquote : ¬isQuote c = true := by
      intro hquote
      rw [isStringless, hquote] at hd
      cases hd.1
    rw [List.cons_append, codeLength, if_neg hquote]
    split
    · exact Option.some_ne_none 2
    next hend =>
      rw [Ne, Option.map_eq_none_iff]
      refine ih hd.2 ((List.infix_cons_iff.1 hclose).resolve_left fun hpre ↦ hend ?_)
      exact startsWith_append (t := c :: d) r (startsWith_iff.2 hpre)

end Stringless

end Code

/-- What may stand in the place of `r` behind any text: a directive that finds no end outside its
strings before `r` finds none before `s`, or finds it at the very end. -/
structure Follows (r s : Text) : Prop where
  nil : r = [] → s = []
  codeLength : ∀ b, codeLength none (b ++ r) = none →
    codeLength none (b ++ s) = none ∨ codeLength none (b ++ s) = some (b ++ s).length

namespace Follows

variable {a d r s : Text}

theorem append (h : Follows r s) (a : Text) : Follows (a ++ r) (a ++ s) where
  nil hnil := by
    obtain ⟨rfl, hr⟩ := List.append_eq_nil_iff.1 hnil
    exact h.nil hr
  codeLength b hb := by
    rw [← List.append_assoc] at hb ⊢
    exact h.codeLength (b ++ a) hb

theorem codeLength_string (h : Follows r s) {c : Char} (hc : isQuote c = true)
    (hr : Erb.codeLength (some c) r = none) :
    Erb.codeLength (some c) s = none ∨ Erb.codeLength (some c) s = some s.length := by
  have hcons (t : Text) :
      Erb.codeLength none ([c] ++ t) = (Erb.codeLength (some c) t).map (· + 1) := by
    rw [List.singleton_append, Erb.codeLength, if_pos hc]
  have hopen := h.codeLength [c]
  rw [hcons, hcons, hr] at hopen
  refine (hopen rfl).imp Option.map_eq_none_iff.1 fun hs ↦ ?_
  obtain ⟨n, hn, hlen⟩ := Option.map_eq_some_iff.1 hs
  rw [hn]
  exact congrArg some (Nat.succ.inj hlen)

/-- A whole directive without strings may be replaced by another. -/
theorem replace {e : Text} (h : Follows r s) (hd : ∀ c ∈ '<' :: d, isStringless c = true)
    (hclose : ("%>" : Text) <:+: '<' :: d) (he : ∀ c ∈ '<' :: e, isStringless c = true) :
    Follows ('<' :: d ++ r) ('<' :: e ++ s) where
  nil := nofun
  codeLength b hb := by
    rcases reaches (q := none) nofun b with ⟨n, hn⟩ | ⟨q, hq, hgo⟩
    · rw [(codeLength_append_iff.2 hn).1] at hb
      cases hb
    · rw [List.cons_append, hgo, Option.map_eq_none_iff, ← List.cons_append] at hb
      cases q with
      | none => exact absurd hb (codeLength_ne_none hd r hclose)
      | some c =>
        have hc := hq c rfl
        rw [Template.codeLength_string hd r hc, Option.map_eq_none_iff] at hb
        rw [List.cons_append, hgo, ← List.cons_append, Template.codeLength_string he s hc,
          Option.map_map, Option.map_eq_none_iff]
        refine (h.codeLength_string hc hb).imp_right fun hs ↦ ?_
        rw [hs]
        simp only [Option.map_some, Function.comp_apply, List.length_append, Option.some.injEq]
        omega

/-- At the end of a template anything may be replaced by a text that has a `>` only at its end. -/
theorem final {u : Text} (hd : d ≠ []) (hu : '>' ∉ u) : Follows d (u ++ ['>']) where
  nil hnil := absurd hnil hd
  codeLength b hb := by
    rcases hend : Erb.codeLength none (b ++ (u ++ ['>'])) with _ | n
    · exact .inl rfl
    have hgt : b.length < n := by
      by_contra hle
      have hin := codeLength_append_iff.1 ⟨hend, Nat.le_of_not_lt hle⟩
      rw [(codeLength_append_iff.2 hin).1] at hb
      cases hb
    have hbound := (codeLength_bounds hend).2
    have hmark := suffix_take_of_codeLength hend
    rw [← List.append_assoc] at hmark hbound ⊢
    refine .inr (congrArg some (Nat.le_antisymm hbound ?_))
    by_contra hlt
    have hle : n ≤ (b ++ u).length := by
      rw [List.length_append, List.length_singleton] at hlt
      omega
    rw [List.take_append_of_le_length hle, List.take_append, List.take_of_length_le hgt.le] at hmark
    have hne : u.take (n - b.length) ≠ [] := by
      rw [List.length_append] at hle
      rw [← List.length_pos_iff, List.length_take]
      omega
    have hlast : (b ++ u.take (n - b.length)).getLast? = some '>' := by
      obtain ⟨v, hv⟩ := hmark
      rw [← hv]
      simp
    rw [List.getLast?_append_of_ne_nil _ hne] at hlast
    exact hu (List.mem_of_mem_take (List.mem_of_getLast? hlast))

end Follows

section Scans

variable {k : Nat} {q : Option Char} {a r s : Text} (h : Follows r s)

include h

theorem closing_of_follows {kind : TokenKind} {n : Nat} (hn : closing kind (a ++ r) = some n)
    (hle : n ≤ a.length) :
    closing kind (a ++ s) = some n ∨ closing kind (a ++ s) = some (a ++ s).length := by
  have hfirst (hr : lengthThrough "%>" (a ++ r) = some n) :
      lengthThrough "%>" (a ++ s) = some n := by
    have hin := (lengthThrough_append_iff percentClose_ne_nil).1 ⟨hr, hle⟩
    exact ((lengthThrough_append_iff percentClose_ne_nil).2 hin).1
  unfold closing at hn ⊢
  split at hn
  · exact .inl (hfirst hn)
  · rcases Option.or_eq_some_iff.1 hn with hcode | ⟨hnone, hr⟩
    · have hin := codeLength_append_iff.1 ⟨hcode, hle⟩
      exact .inl (Option.or_eq_some_iff.2 (.inl (codeLength_append_iff.2 hin).1))
    · rcases h.codeLength a hnone with hs | hs
      · exact .inl (Option.or_eq_some_iff.2 (.inr ⟨hs, hfirst hr⟩))
      · exact .inr (Option.or_eq_some_iff.2 (.inl hs))

theorem directiveLength_of_follows (hle : directiveLength (a ++ r) ≤ a.length) :
    directiveLength (a ++ s) = directiveLength (a ++ r) ∨
      directiveLength (a ++ s) = (a ++ s).length := by
  by_cases hnil : r = []
  · rw [hnil, h.nil hnil]
    exact .inl rfl
  have hlt : directiveLength (a ++ r) < (a ++ r).length := by
    have hpos := List.length_pos_iff.2 hnil
    rw [List.length_append]
    omega
  obtain ⟨n, hn, hlen⟩ := closing_of_lt hlt
  have hbound := closing_bounds hn
  have hdrop (t : Text) : (a ++ t).drop 2 = a.drop 2 ++ t :=
    List.drop_append_of_le_length (by omega)
  have hkind (t : Text) : directiveKind (a ++ t) = directiveKind a :=
    directiveKind_append t (by omega)
  rw [hkind, hdrop] at hn
  rw [hlen, directiveLength_eq, hkind, hdrop]
  rcases closing_of_follows h hn (by rw [List.length_drop]; omega) with hs | hs
  · exact .inl (by rw [hs]; rfl)
  · right
    rw [hs]
    simp only [Option.map_some, Option.getD_some, List.length_append, List.length_drop]
    omega

theorem tagLength_of_follows (hle : tagLength k q (a ++ r) ≤ a.length) :
    tagLength k q (a ++ s) = tagLength k q (a ++ r) ∨
      tagLength k q (a ++ s) = (a ++ s).length := by
  by_cases hnil : r = []
  · rw [hnil, h.nil hnil]
    exact .inl rfl
  have hcons (c : Char) {u v : Nat} {t : Text} (hor : u = v ∨ u = t.length) :
      u + 1 = v + 1 ∨ u + 1 = (c :: t).length :=
    hor.imp (congrArg (· + 1)) (congrArg (· + 1))
  -- Only at its end does a tag end with the last character before `r`.
  have hdirective {q' : Option Char} {c : Char} {a : Text}
      (hd : ¬startsDirective (c :: a) = true) (hle : tagLength 0 q' (a ++ r) ≤ a.length) :
      ¬startsDirective (c :: (a ++ s)) = true := by
    intro hstart
    cases a with
    | nil =>
      have hpos := tagLength_pos 0 q' hnil
      rw [List.nil_append, List.length_nil] at hle
      omega
    | cons d a => exact hd (startsWith_of_append (t := c :: d :: a) hstart (by simp))
  fun_induction tagLength k q a with
  | case1 k q =>
    have hpos := tagLength_pos k q hnil
    rw [List.nil_append, List.length_nil] at hle
    omega
  | case2 k q c a ih =>
    simp only [List.cons_append, tagLength, List.length_cons] at hle ⊢
    exact hcons c (ih (by omega))
  | case3 q c a hd ih =>
    have hout (t : Text) : startsDirective (c :: (a ++ t)) = true := startsWith_append t hd
    have hshort := (directiveLength_le_tagLength (hout r)).trans hle
    have hsame : directiveLength (c :: a) = directiveLength (c :: (a ++ r)) :=
      directiveLength_append hshort
    have hend := directiveLength_of_follows (a := c :: a) h hshort
    simp only [List.cons_append, tagLength, if_pos (hout _), List.length_cons] at hle hend ⊢
    rcases hend with hend | hend
    · rw [← hsame] at hle hend ⊢
      rw [hend]
      exact hcons c (ih (Nat.le_of_succ_le_succ hle))
    · rw [hend, Nat.add_sub_cancel]
      exact .inr (congrArg (· + 1) (Nat.le_antisymm (tagLength_le _ _ _) (le_tagLength q le_rfl)))
  | case4 c a hd d ih =>
    have hr := not_startsDirective_append hd hle
    simp only [List.cons_append, tagLength, if_neg hr, List.length_cons] at hle ⊢
    have hle := Nat.le_of_succ_le_succ hle
    rw [if_neg (hdirective hd hle)]
    exact hcons c (ih hle)
  | case5 c a hd hq ih =>
    have hr := not_startsDirective_append hd hle
    simp only [List.cons_append, tagLength, if_neg hr, if_pos hq, List.length_cons] at hle ⊢
    have hle := Nat.le_of_succ_le_succ hle
    rw [if_neg (hdirective hd hle)]
    exact hcons c (ih hle)
  | case6 c a hd hq hgt =>
    have hr := not_startsDirective_append hd hle
    have hs : ¬startsDirective (c :: (a ++ s)) = true :=
      not_startsDirective_of_ne _ (by rw [beq_iff_eq.1 hgt]; decide)
    simp only [List.cons_append, tagLength, if_neg hr, if_neg hs, if_neg hq, if_pos hgt]
    exact .inl trivial
  | case7 c a hd hq hgt ih =>
    have hr := not_startsDirective_append hd hle
    simp only [List.cons_append, tagLength, if_neg hr, if_neg hq, if_neg hgt,
      List.length_cons] at hle ⊢
    have hle := Nat.le_of_succ_le_succ hle
    rw [if_neg (hdirective hd hle)]
    exact hcons c (ih hle)

end Scans

/-- What a token becomes when something else comes to follow it: it stays as it is or takes all that
follows. -/
theorem lexeme_of_follows {a r s : Text} {kind : TokenKind} (h : Follows r s) (ha : a ≠ [])
    (hlex : lexeme (a ++ r) = (kind, a.length))
    (htext : kind = .text → s = [] ∨ startsMarkup s = true) :
    lexeme (a ++ s) = (kind, a.length) ∨ lexeme (a ++ s) = (kind, (a ++ s).length) := by
  by_cases hnil : r = []
  · rw [hnil] at hlex
    rw [h.nil hnil]
    exact .inl hlex
  have hlt : a.length < (a ++ r).length := by
    have hpos := List.length_pos_iff.2 hnil
    rw [List.length_append]
    omega
  rcases startsMarkup_cases (a ++ r) with hs | hs | hs | hs
  · rw [lexeme_of_directive hs] at hlex
    obtain ⟨rfl, hlen⟩ := Prod.mk.inj hlex
    obtain ⟨n, hn, hlen'⟩ := closing_of_lt (hlen.trans_lt hlt)
    have hbound := closing_bounds hn
    have hstart : startsDirective a = true := startsWith_of_append hs (by simp; omega)
    have hkind (t : Text) : directiveKind (a ++ t) = directiveKind a :=
      directiveKind_append t (by omega)
    rw [lexeme_of_directive (startsWith_append s hstart), hkind, hkind]
    have hend := directiveLength_of_follows h hlen.le
    rw [hlen] at hend
    exact hend.imp (congrArg _) (congrArg _)
  · rw [lexeme_of_htmlComment hs] at hlex
    obtain ⟨rfl, hlen⟩ := Prod.mk.inj hlex
    obtain ⟨n, hn, hlen'⟩ := lengthThrough_of_lt (hlen.trans_lt hlt)
    have hstart : startsHtmlComment a = true := startsWith_of_append hs (by simp; omega)
    have hdrop (t : Text) : (a ++ t).drop 4 = a.drop 4 ++ t :=
      List.drop_append_of_le_length (by omega)
    rw [hdrop] at hn
    have hin := (lengthThrough_append_iff dashClose_ne_nil).1 ⟨hn, by rw [List.length_drop]; omega⟩
    have hout := ((lengthThrough_append_iff (b := s) dashClose_ne_nil).2 hin).1
    rw [lexeme_of_htmlComment (startsWith_append s hstart), htmlCommentLength, hdrop, hout]
    exact .inl (congrArg _ (hlen'.symm.trans hlen))
  · rw [lexeme_of_tag hs] at hlex
    obtain ⟨rfl, hlen⟩ := Prod.mk.inj hlex
    have hstart := startsTag_of_append hs hlen.le
    have hsecond (t : Text) : (a ++ t)[1]? = a[1]? := by
      obtain ⟨c, u, -, rfl | rfl⟩ := startsTag_iff.1 hstart <;> rfl
    have hdrop (t : Text) : (a ++ t).drop 1 = a.drop 1 ++ t :=
      List.drop_append_of_le_length (List.length_pos_iff.2 ha)
    rw [hdrop] at hlen
    rw [lexeme_of_tag (startsTag_append s hstart), hsecond, hsecond, hdrop]
    have hend := tagLength_of_follows h (k := 0) (q := none) (a := a.drop 1)
      (by rw [List.length_drop]; omega)
    rw [← hlen]
    refine hend.imp (fun heq ↦ by rw [heq]) fun heq ↦ ?_
    rw [heq]
    simp only [List.length_append, List.length_drop, Prod.mk.injEq, true_and]
    have hpos := List.length_pos_iff.2 ha
    omega
  · have hfirst : firstToken (a ++ r) = ⟨kind, a⟩ := by rw [firstToken, hlex, List.take_left]
    have hkind : kind = .text := by
      rw [lexeme_of_text hs] at hlex
      exact (Prod.mk.inj hlex).1.symm
    have hmarkup := holdsMarkup_firstToken (List.append_ne_nil_of_left_ne_nil ha r)
      (congrArg Token.kind hfirst |>.trans hkind)
    rw [hfirst] at hmarkup
    cases hkind
    exact .inl ((Token.Clean.text ha hmarkup).lexeme_append s htext)

section Tokens

variable {t : Text}

theorem substituteChildren_of_ne_nil (h : t ≠ []) :
    substituteChildren t =
      (showContent (firstToken t)).text ++ substituteChildren (afterFirst t) := by
  rw [substituteChildren, tokenize_of_ne_nil h]
  rfl

theorem startsMarkup_substituteChildren (h : startsMarkup t = true) :
    startsMarkup (substituteChildren t) = true := by
  have hne : t ≠ [] := by
    rintro rfl
    cases h
  rw [substituteChildren_of_ne_nil hne, showContent]
  refine startsMarkup_append _ ?_
  split
  · rfl
  · by_contra hnot
    have hself := congrArg List.head? (tokenize_firstToken hne)
    rw [tokenize_of_ne_nil (firstToken_text_ne_nil hne), firstToken, lexeme_of_text hnot] at hself
    exact firstToken_kind_ne_text h (congrArg Token.kind (Option.some.inj hself)).symm

/-- An output that something follows is closed. -/
theorem exists_body_firstToken (hk : isOutput (firstToken t) = true) (hrest : afterFirst t ≠ []) :
    ∃ body : Text, (firstToken t).text = "<%" ++ body ++ "%>" := by
  have hstart : startsDirective t = true := by
    rcases startsMarkup_cases t with hs | hs | hs | hs
    · exact hs
    · rw [isOutput, firstToken, lexeme_of_htmlComment hs] at hk
      cases hk
    · rw [isOutput, firstToken, lexeme_of_tag hs] at hk
      split at hk <;> cases hk
    · rw [isOutput, firstToken, lexeme_of_text hs] at hk
      cases hk
  have hlt : directiveLength t < t.length := by
    by_contra hge
    refine hrest (afterFirst_eq_nil_of_length_le ?_)
    rw [lexeme_of_directive hstart]
    exact Nat.le_of_not_lt hge
  obtain ⟨n, hn, hlen⟩ := closing_of_lt hlt
  have hbound := closing_bounds hn
  obtain ⟨u, rfl⟩ := startsWith_iff.1 hstart
  obtain ⟨body, hbody⟩ := suffix_take_of_closing hn
  refine ⟨body, ?_⟩
  rw [firstToken, lexeme_of_directive hstart, hlen, List.append_assoc, hbody]
  rfl

/-- What is neither white space nor a mark of the directive is part of its code. -/
theorem mem_code {k : Token} {c : Char}
    (hc : c ∈ (k.text.drop 2).take (k.text.length - 4)) (hsolid : isBlank c = false)
    (hmark : c ∉ ("=#-" : Text)) : c ∈ k.code := by
  have hstrip {u : Text} (hu : c ∈ u) : c ∈ strip u := by
    have hink : c ∈ ink (strip u) := by
      rw [ink_strip]
      exact List.mem_filter.2 ⟨hu, by rw [hsolid]; rfl⟩
    exact List.mem_of_mem_filter hink
  have hdash {u : Text} (hu : c ∈ u) : c ∈ if endsWith u "-" then u.dropLast else u := by
    split
    next hend =>
      rw [dropLast_append_of_endsWith hend, List.mem_append, List.mem_singleton] at hu
      exact hu.resolve_right fun heq ↦ hmark (by simp [heq])
    next => exact hu
  rw [Token.code]
  refine hstrip (hdash ?_)
  split
  case h_1 _ _ heq | h_2 _ _ heq | h_3 _ _ heq =>
    rw [heq] at hc
    exact (List.mem_cons.1 hc).resolve_left fun heq ↦ hmark (by simp [heq])
  case h_4 => exact hc

theorem not_mem_code {k : Token} (h : isChildrenOutput k = true) {c : Char}
    (hc : c ∉ ("@children" : Text)) : c ∉ k.code := by
  rw [isChildrenOutput, Bool.and_eq_true, Bool.or_eq_true, beq_iff_eq, beq_iff_eq,
    beq_iff_eq] at h
  rcases h.2 with hcode | hcode
  · rwa [hcode]
  · rw [hcode]
    exact fun hmem ↦ hc (List.mem_cons_of_mem '@' hmem)

/-- An output of the children holds no string. -/
theorem isStringless_of_isChildrenOutput {body : Text} {k : Token}
    (htext : k.text = "<%" ++ body ++ "%>") (h : isChildrenOutput k = true) :
    ∀ c ∈ k.text, isStringless c = true := by
  have hbody : (k.text.drop 2).take (k.text.length - 4) = body := by
    rw [htext]
    have hlen : ("<%" ++ body ++ "%>" : Text).length - 4 = body.length := by simp
    rw [hlen]
    exact List.take_left
  intro c hc
  by_contra hstring
  have hclass : c = '"' ∨ c = '\'' ∨ c = '\\' := by
    simpa [isStringless, isQuote, or_assoc, or_iff_not_imp_left] using hstring
  have hmem : c ∈ body := by
    rw [htext, List.mem_append, List.mem_append] at hc
    rcases hclass with rfl | rfl | rfl <;> simpa using hc
  rw [← hbody] at hmem
  rcases hclass with rfl | rfl | rfl <;>
    exact not_mem_code h (by decide) (mem_code hmem (by decide) (by decide))

/-- A token that takes what follows it shows no children: the end it had stands in its code. -/
theorem not_isChildrenOutput_append {kind : TokenKind} {body s : Text} (hs : s ≠ []) :
    isChildrenOutput ⟨kind, "<%" ++ body ++ "%>" ++ s⟩ = false := by
  rw [← Bool.not_eq_true]
  intro h
  refine not_mem_code h (c := '%') (by decide) (mem_code ?_ (by decide) (by decide))
  have hpos := List.length_pos_iff.2 hs
  have hdrop : ("<%" ++ body ++ "%>" ++ s : Text).drop 2 = (body ++ ['%']) ++ '>' :: s := by simp
  have hlen : (body ++ ['%']).length ≤ ("<%" ++ body ++ "%>" ++ s : Text).length - 4 := by
    simp
    omega
  simp only [hdrop]
  rw [List.take_append, List.take_of_length_le hlen]
  simp

theorem clean_contentToken : contentToken.Clean :=
  .directive (.output " content " ⟨by decide, by decide⟩)

/-- Replacing an output of the children keeps to what may follow a text. -/
theorem Follows.content {s : Text} (h : isChildrenOutput (firstToken t) = true)
    (hfollows : Follows (afterFirst t) s) : Follows t (contentToken.text ++ s) := by
  have hsplit := firstToken_append_afterFirst t
  by_cases hrest : afterFirst t = []
  · have hne : t ≠ [] := by
      rintro rfl
      cases h
    rw [hfollows.nil hrest, List.append_nil]
    exact final (u := "<%= content %") hne (by decide)
  · obtain ⟨body, hbody⟩ := exists_body_firstToken (isOutput_of_isChildrenOutput h) hrest
    have hstringless := isStringless_of_isChildrenOutput hbody h
    have hshape : ("<%" ++ body ++ "%>" : Text) = '<' :: ('%' :: body ++ "%>") := by simp
    have hclose : ("%>" : Text) <:+: '<' :: ('%' :: body ++ "%>") :=
      ((List.suffix_append _ _).trans (List.suffix_cons _ _)).isInfix
    rw [hbody, hshape] at hsplit hstringless
    rw [← hsplit]
    exact hfollows.replace hstringless hclose (e := "%= content %>")
      (List.all_eq_true.1 (by decide))

/-- A token that is no output of the children is none when something else comes to follow it. -/
theorem hasChildren_append {s : Text} (hne : t ≠ [])
    (h : isChildrenOutput (firstToken t) = false) (hfollows : Follows (afterFirst t) s)
    (htext : (firstToken t).kind = .text → s = [] ∨ startsMarkup s = true)
    (hs : hasChildren s = false) : hasChildren ((firstToken t).text ++ s) = false := by
  have hfirst := firstToken_text_ne_nil hne
  have hlex : lexeme ((firstToken t).text ++ afterFirst t) =
      ((firstToken t).kind, (firstToken t).text.length) := by
    rw [firstToken_append_afterFirst, firstToken_text_length hne]
    rfl
  rw [hasChildren, tokenize_of_ne_nil (List.append_ne_nil_of_left_ne_nil hfirst s), List.any_cons,
    Bool.or_eq_false_iff]
  rcases lexeme_of_follows hfollows hfirst hlex htext with heq | heq
  · rw [firstToken, afterFirst, heq, List.take_left, List.drop_left]
    exact ⟨h, hs⟩
  · rw [firstToken, afterFirst, heq, List.take_length, List.drop_length]
    refine ⟨?_, rfl⟩
    by_cases hout : isOutput (firstToken t) = true
    · by_cases hnil : s = []
      · rw [hnil, List.append_nil]
        exact h
      · have hrest : afterFirst t ≠ [] := fun hrest ↦ hnil (hfollows.nil hrest)
        obtain ⟨body, hbody⟩ := exists_body_firstToken hout hrest
        rw [hbody]
        exact not_isChildrenOutput_append hnil
    · rw [← Bool.not_eq_true]
      intro hchildren
      have hkind := isOutput_of_isChildrenOutput hchildren
      exact hout hkind

theorem follows_substituteChildren (t : Text) :
    Follows t (substituteChildren t) ∧ hasChildren (substituteChildren t) = false := by
  induction t using token_induction with
  | nil => exact ⟨⟨fun _ ↦ rfl, fun b hb ↦ .inl hb⟩, rfl⟩
  | step t hne ih =>
    obtain ⟨hfollows, hnone⟩ := ih
    rw [substituteChildren_of_ne_nil hne, showContent]
    split
    next hchildren =>
      refine ⟨hfollows.content hchildren, ?_⟩
      have hkind : contentToken.kind ≠ .text := by decide
      rw [hasChildren, clean_contentToken.tokenize_append _ fun h ↦ absurd h hkind, List.any_cons,
        Bool.or_eq_false_iff]
      exact ⟨by decide, hnone⟩
    next hchildren =>
      have hsplit := hfollows.append (firstToken t).text
      rw [firstToken_append_afterFirst] at hsplit
      refine ⟨hsplit, hasChildren_append hne (Bool.not_eq_true _ ▸ hchildren) hfollows ?_ hnone⟩
      intro hkind
      by_cases hrest : afterFirst t = []
      · exact .inl (hfollows.nil hrest)
      · exact .inr (startsMarkup_substituteChildren (startsMarkup_afterFirst hne hkind hrest))

theorem substituteChildren_eq_self (h : hasChildren t = false) : substituteChildren t = t := by
  rw [hasChildren, List.any_eq_false] at h
  have hkept : (tokenize t).map showContent = (tokenize t).map id :=
    List.map_congr_left fun k hk ↦ if_neg (h k hk)
  rw [List.map_id] at hkept
  exact (congrArg render hkept).trans (render_tokenize t)

/-- Once the content is shown, no template shows its children, and showing the content again
changes nothing. -/
theorem hasChildren_substituteChildren (t : Text) :
    hasChildren (substituteChildren t) = false ∧
      substituteChildren (substituteChildren t) = substituteChildren t := by
  have hnone := (follows_substituteChildren t).2
  exact ⟨hnone, substituteChildren_eq_self hnone⟩

-- The text between them closes the string of the first directive, and only the second one, which
-- had no end, gives it one.
example :
    tokenize "<%= ' %>it's <%= children--" =
      [⟨.output, "<%= ' %>"⟩, ⟨.text, "it's "⟩, ⟨.output, "<%= children--"⟩] ∧
    tokenize (substituteChildren "<%= ' %>it's <%= children--") =
      [⟨.output, "<%= ' %>it's <%= content %>"⟩] := by
  decide +kernel

end Tokens

end ViewForge.Template
