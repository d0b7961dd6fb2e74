import Mathlib.Data.List.Chain
import ViewForge.Erb.Tag
import ViewForge.Proofs.Erb.Partition

namespace ViewForge.Erb

open Text

def quoteAfter : Option Char → Text → Option Char
  | q, [] => q
  | some q, '\\' :: [] => some q
  | some q, '\\' :: _ :: r => quoteAfter (some q) r
  | some q, c :: r => quoteAfter (if c == q then none else some q) r
  | none, c :: r => quoteAfter (if isQuote c then some c else none) r

/-- Code that a directive may hold: it has no `%>` in it and closes its strings. -/
structure CleanCode (code : Text) : Prop where
  no_close : ¬("%>" : Text) <:+: code
  closed : quoteAfter none code = none

/-- Directives with nothing but their own `%>`. The strings of a comment need not close. -/
inductive CleanDirective : TokenKind → Text → Prop
  | code (body : Text) : CleanCode body → body.head? ≠ some '=' → body.head? ≠ some '#' →
      CleanDirective .code ("<%" ++ body ++ "%>")
  | output (body : Text) : CleanCode body → CleanDirective .output ("<%=" ++ body ++ "%>")
  | comment (body : Text) : ¬("%>" : Text) <:+: body →
      CleanDirective .comment ("<%#" ++ body ++ "%>")

def isNameSymbol (c : Char) : Bool := isAttributeNamePart c && !isQuote c && c != '<'

def isTagName : Text → Bool
  | [] => false
  | c :: r => isAsciiLetter c && r.all isNameSymbol

/-- A value between two quotes `q`. Directives in it may hold quotes of their own. -/
inductive CleanValue (q : Char) : Text → Prop
  | nil : CleanValue q []
  | char {c : Char} {r : Text} : c ≠ q → ¬startsDirective (c :: r) = true → CleanValue q r →
      CleanValue q (c :: r)
  | directive {kind : TokenKind} {d r : Text} : CleanDirective kind d → CleanValue q r →
      CleanValue q (d ++ r)

/-- What stands between the name of an opening tag and the end of the tag. -/
inductive CleanTagBody : Text → Prop
  | close : CleanTagBody ">"
  | selfClose : CleanTagBody "/>"
  | blank (c : Char) {r : Text} : isBlank c = true → CleanTagBody r → CleanTagBody (c :: r)
  | bare (name : Text) {r : Text} : name.all isNameSymbol = true → CleanTagBody r →
      CleanTagBody (name ++ r)
  | valued (name before after : Text) {v r : Text} (q : Char) : name.all isNameSymbol = true →
      before.all isBlank = true → after.all isBlank = true → isQuote q = true → CleanValue q v →
      CleanTagBody r → CleanTagBody (name ++ before ++ "=" ++ after ++ q :: v ++ q :: r)
  | directive {kind : TokenKind} {d r : Text} : CleanDirective kind d → CleanTagBody r →
      CleanTagBody (d ++ r)

/-- A token that ends where it seems to, whatever stands after it. -/
inductive Token.Clean : Token → Prop
  | text {t : Text} : t ≠ [] → holdsMarkup t = false → Clean ⟨.text, t⟩
  | directive {kind : TokenKind} {d : Text} : CleanDirective kind d → Clean ⟨kind, d⟩
  | htmlComment (body : Text) : ¬("-->" : Text) <:+: body →
      Clean ⟨.htmlComment, "<!--" ++ body ++ "-->"⟩
  | closeTag (name : Text) : isTagName name = true → Clean ⟨.closeTag, "</" ++ name ++ ">"⟩
  | openTag (name : Text) {body : Text} : isTagName name = true → CleanTagBody body →
      Clean ⟨.openTag, "<" ++ name ++ body⟩

theorem infix_append_cons {p a b : Text} {c : Char} (hc : c ∉ p) (h : p <:+: a ++ c :: b) :
    p <:+: a ∨ p <:+: b := by
  obtain ⟨s, t, h⟩ := h
  rw [List.append_assoc, List.append_eq_append_iff] at h
  rcases h with ⟨u, rfl, hu⟩ | ⟨u, rfl, hu⟩
  · rcases List.append_eq_append_iff.1 hu with ⟨v, rfl, -⟩ | ⟨v, rfl, hv⟩
    · exact .inl ⟨s, v, by rw [List.append_assoc]⟩
    · cases v with
      | nil => exact .inl ⟨s, [], by simp⟩
      | cons d v =>
        obtain ⟨rfl, -⟩ := List.cons.inj hv
        exact absurd (List.mem_append_right u List.mem_cons_self) hc
  · cases u with
    | nil =>
      cases p with
      | nil => exact .inl (List.nil_infix)
      | cons d p =>
        obtain ⟨rfl, -⟩ := List.cons.inj hu
        exact absurd List.mem_cons_self hc
    | cons d u =>
      obtain ⟨-, hb⟩ := List.cons.inj hu
      exact .inr ⟨u, t, by rw [hb, List.append_assoc]; rfl⟩

theorem quoteAfter_append {q : Option Char} {a : Text} (b : Text) (h : quoteAfter q a = none) :
    quoteAfter q (a ++ b) = quoteAfter none b := by
  fun_induction quoteAfter q a with
  | case1 q => rw [h, List.nil_append]
  | case2 q => cases h
  | case3 q c r ih =>
    rw [List.cons_append, List.cons_append, quoteAfter]
    exact ih h
  | case4 q c r h₁ h₂ ih =>
    rw [List.cons_append, quoteAfter]
    · exact ih h
    -- A backslash that ends `a` would leave its string open, so it cannot reach into `b`.
    · rintro rfl hr
      obtain ⟨rfl, -⟩ := List.append_eq_nil_iff.1 hr
      exact h₁ rfl rfl
    · rintro d s rfl hr
      cases r with
      | nil => exact h₁ rfl rfl
      | cons e r => exact h₂ e r rfl rfl
  | case5 c r ih =>
    rw [List.cons_append, quoteAfter]
    exact ih h

theorem codeLength_of_closed {q : Option Char} {body : Text} (r : Text)
    (hq : quoteAfter q body = none) (hc : ¬("%>" : Text) <:+: body) :
    codeLength q (body ++ "%>" ++ r) = some (body.length + 2) := by
  fun_induction quoteAfter q body with
  | case1 q =>
    subst hq
    rfl
  | case2 q => cases hq
  | case3 q c s ih =>
    have hs : ¬("%>" : Text) <:+: s := fun h ↦
      hc (h.trans ((List.suffix_cons c s).trans (List.suffix_cons _ _)).isInfix)
    simp only [List.cons_append, codeLength, ih hq hs]
    rfl
  | case4 q c s h₁ h₂ ih =>
    have hs : ¬("%>" : Text) <:+: s := fun h ↦ hc (h.trans (List.suffix_cons c s).isInfix)
    rw [List.cons_append, List.cons_append, codeLength, ih hq hs]
    · rfl
    · intro _ hr
      simp at hr
    · rintro d u rfl hr
      cases s with
      | nil => exact h₁ rfl rfl
      | cons e s => exact h₂ e s rfl rfl
  | case5 c s ih =>
    have hs : ¬("%>" : Text) <:+: s := fun h ↦ hc (h.trans (List.suffix_cons c s).isInfix)
    -- The `%` that closes the directive is no `>`, so no mark ends on it.
    have hend : ¬startsWith (c :: (s ++ "%>" ++ r)) "%>" = true := by
      rw [startsWith_iff]
      simp only [String.reduceToList] at hc ⊢
      rintro ⟨u, hu⟩
      obtain ⟨rfl, hrest⟩ := List.cons.inj hu
      cases s with
      | nil => exact absurd (List.cons.inj hrest).1 (by decide)
      | cons d s =>
        obtain ⟨rfl, -⟩ := List.cons.inj hrest
        exact hc ⟨[], s, rfl⟩
    rw [List.cons_append, List.cons_append, codeLength]
    have ih := ih hq hs
    by_cases hquote : isQuote c = true
    · rw [if_pos hquote] at ih ⊢
      rw [ih]
      rfl
    · rw [if_neg hquote] at ih ⊢
      rw [if_neg hend, ih]
      rfl

namespace CleanCode

theorem cons {c : Char} {code : Text} (hq : isQuote c = false) (hc : c ≠ '%')
    (h : CleanCode code) : CleanCode (c :: code) where
  no_close := by
    intro hin
    rcases List.infix_cons_iff.1 hin with ⟨s, hs⟩ | hin
    · exact hc (List.cons.inj hs).1.symm
    · exact h.no_close hin
  closed := by
    rw [quoteAfter, hq]
    exact h.closed

theorem append_cons {a b : Text} {c : Char} (ha : CleanCode a) (hq : isQuote c = false)
    (h₁ : c ≠ '%') (h₂ : c ≠ '>') (hb : CleanCode b) : CleanCode (a ++ c :: b) where
  no_close := fun hin ↦
    (infix_append_cons (by simp [h₁, h₂]) hin).elim ha.no_close hb.no_close
  closed := by
    rw [quoteAfter_append _ ha.closed, quoteAfter, hq]
    exact hb.closed

end CleanCode

theorem closing_of_clean {body : Text} {kind : TokenKind} (r : Text) (hk : kind ≠ .comment)
    (h : CleanCode body) : closing kind (body ++ "%>" ++ r) = some (body.length + 2) := by
  have hlen := codeLength_of_closed r h.closed h.no_close
  unfold closing
  split
  · exact absurd rfl hk
  · rw [hlen, Option.some_or]

/-- A mark whose last character occurs in it only once cannot begin before a copy of itself and
reach into the copy. -/
theorem mark_prefix_of_append {p s r : Text} {e : Char} (he : e ∉ p) (hs : s ≠ [])
    (h : p ++ [e] <+: s ++ (p ++ [e] ++ r)) : p ++ [e] <+: s := by
  rcases Nat.le_total (p ++ [e]).length s.length with hle | hle
  · exact List.prefix_of_prefix_length_le h (List.prefix_append s _) hle
  · obtain ⟨u, hu⟩ := List.prefix_of_prefix_length_le (List.prefix_append s _) h hle
    by_cases hnil : u = []
    · rw [hnil, List.append_nil] at hu
      rw [hu]
    · rw [← hu, List.prefix_append_right_inj, hu] at h
      have hlen : u.length ≤ p.length := by
        have hlen := congrArg List.length hu
        have hpos := List.length_pos_iff.2 hs
        simp only [List.length_append, List.length_singleton] at hlen
        omega
      have hup : u <+: p :=
        List.prefix_of_prefix_length_le h ⟨[e] ++ r, by rw [List.append_assoc]⟩ hlen
      have hlast : u.getLast hnil = e := by
        have hlast := List.getLast_append_of_ne_nil (l := s) (by simp [hnil]) hnil
        simp only [hu, List.getLast_concat] at hlast
        exact hlast.symm
      exact absurd (hup.subset (hlast ▸ List.getLast_mem hnil)) he

theorem lengthThrough_append_mark {p body : Text} {e : Char} (r : Text) (he : e ∉ p)
    (h : ¬p ++ [e] <:+: body) :
    lengthThrough (p ++ [e]) (body ++ (p ++ [e] ++ r)) =
      some (body.length + (p ++ [e]).length) := by
  induction body with
  | nil =>
    have hpre : (p ++ [e]).isPrefixOf (p ++ [e] ++ r) = true :=
      List.isPrefixOf_iff_prefix.2 (List.prefix_append _ r)
    obtain ⟨c, s, hcs⟩ := List.exists_cons_of_ne_nil (l := p ++ [e] ++ r) (by simp)
    rw [hcs] at hpre
    rw [List.nil_append, hcs, lengthThrough, if_pos hpre, List.length_nil, Nat.zero_add]
  | cons c body ih =>
    have hpre : ¬(p ++ [e]).isPrefixOf (c :: (body ++ (p ++ [e] ++ r))) = true := by
      rw [List.isPrefixOf_iff_prefix]
      exact fun hin ↦ h (mark_prefix_of_append he (List.cons_ne_nil c body) hin).isInfix
    rw [List.cons_append, lengthThrough, if_neg hpre,
      ih fun hin ↦ h (hin.trans (List.suffix_cons c body).isInfix), List.length_cons]
    simp only [Option.map_some, Option.some.injEq]
    omega

namespace CleanDirective

variable {kind : TokenKind} {d : Text}

theorem startsDirective (h : CleanDirective kind d) : startsDirective d = true := by
  cases h <;> rfl

theorem directiveKind_append (h : CleanDirective kind d) (r : Text) :
    directiveKind (d ++ r) = kind := by
  cases h with
  | code body hc h₁ h₂ =>
    cases body with
    | nil => rfl
    | cons c s =>
      have hthird : ("<%" ++ c :: s ++ "%>" ++ r)[2]? = some c := rfl
      rw [directiveKind, hthird]
      split
      next heq => exact absurd heq h₂
      next heq => exact absurd heq h₁
      next => rfl
  | output => rfl
  | comment => rfl

theorem exists_body (h : CleanDirective kind d) : ∃ body : Text, d = "<%" ++ body ++ "%>" ∧
    ∀ r, closing kind (body ++ "%>" ++ r) = some (body.length + 2) := by
  cases h with
  | code body hc _ _ => exact ⟨body, rfl, fun r ↦ closing_of_clean r (by decide) hc⟩
  | output body hc =>
    have heq : CleanCode ('=' :: body) := hc.cons (by decide) (by decide)
    exact ⟨'=' :: body, rfl, fun r ↦ closing_of_clean r (by decide) heq⟩
  | comment body hc =>
    refine ⟨'#' :: body, rfl, fun r ↦ ?_⟩
    have hmark : ¬['%'] ++ ['>'] <:+: '#' :: body := by
      intro hin
      rcases List.infix_cons_iff.1 hin with ⟨s, hs⟩ | hin
      · exact absurd (List.cons.inj hs).1 (by decide)
      · exact hc hin
    have hlen := lengthThrough_append_mark r (by decide) hmark
    rw [← List.append_assoc] at hlen
    exact hlen

theorem directiveLength_append (h : CleanDirective kind d) (r : Text) :
    directiveLength (d ++ r) = d.length := by
  rw [directiveLength_eq, h.directiveKind_append]
  obtain ⟨body, rfl, hclose⟩ := h.exists_body
  have hdrop : ("<%" ++ body ++ "%>" ++ r).drop 2 = body ++ "%>" ++ r := rfl
  rw [hdrop, hclose]
  simp only [Option.map_some, Option.getD_some, List.length_append, String.reduceToList,
    List.length_cons, List.length_nil]
  omega

theorem ne_nil (h : CleanDirective kind d) : d ≠ [] := by
  cases h <;> exact List.cons_ne_nil _ _

end CleanDirective

theorem tagLength_length_append (q : Option Char) (s r : Text) :
    tagLength s.length q (s ++ r) = s.length + tagLength 0 q r := by
  induction s with
  | nil => rw [List.length_nil, List.nil_append, Nat.zero_add]
  | cons c s ih =>
    rw [List.length_cons, List.cons_append, tagLength, ih]
    omega

theorem tagLength_directive {kind : TokenKind} {d : Text} (q : Option Char) (r : Text)
    (h : CleanDirective kind d) : tagLength 0 q (d ++ r) = d.length + tagLength 0 q r := by
  have hlen := h.directiveLength_append r
  have hstart : Erb.startsDirective (d ++ r) = true := startsWith_append r h.startsDirective
  obtain ⟨c, s, rfl⟩ := List.exists_cons_of_ne_nil h.ne_nil
  rw [List.cons_append] at hlen hstart
  simp only [List.cons_append, tagLength]
  rw [if_pos hstart, hlen, List.length_cons, Nat.add_sub_cancel, tagLength_length_append]
  omega

theorem not_startsDirective_of_ne {c : Char} (r : Text) (h : c ≠ '<') :
    ¬startsDirective (c :: r) = true := by
  rw [startsDirective, startsWith_iff]
  rintro ⟨u, hu⟩
  exact h (List.cons.inj hu).1.symm

def isPlain (c : Char) : Bool := !isQuote c && c != '<' && c != '>'

theorem tagLength_plain {s : Text} (r : Text) (h : s.all isPlain = true) :
    tagLength 0 none (s ++ r) = s.length + tagLength 0 none r := by
  induction s with
  | nil => rw [List.nil_append, List.length_nil, Nat.zero_add]
  | cons c s ih =>
    simp only [List.all_cons, isPlain, Bool.and_eq_true, Bool.not_eq_true', bne_iff_ne] at h
    obtain ⟨⟨⟨hq, hlt⟩, hgt⟩, hs⟩ := h
    have hd := not_startsDirective_of_ne (s ++ r) hlt
    simp only [List.cons_append, tagLength, if_neg hd, hq, beq_iff_eq, if_neg hgt, ih hs,
      Bool.false_eq_true, if_false, List.length_cons]
    omega

theorem tagLength_value {q : Char} {v : Text} (r : Text) (hq : isQuote q = true)
    (h : CleanValue q v) :
    tagLength 0 (some q) (v ++ q :: r) = v.length + 1 + tagLength 0 none r := by
  induction h with
  | nil =>
    have hd := not_startsDirective_of_ne r (ne_of_class hq (by decide : isQuote '<' = false))
    simp only [List.nil_append, tagLength, if_neg hd, beq_self_eq_true, if_true, List.length_nil]
    omega
  | @char c s hc hd hs ih =>
    have hout : ¬startsDirective (c :: (s ++ q :: r)) = true := by
      intro hstart
      cases s with
      | nil =>
        obtain ⟨u, hu⟩ := startsWith_iff.1 hstart
        exact ne_of_class hq (by decide : isQuote '%' = false)
          (List.cons.inj (List.cons.inj hu).2).1.symm
      | cons d s => exact hd (startsWith_of_append (t := c :: d :: s) hstart (by simp))
    simp only [List.cons_append, tagLength, if_neg hout, beq_iff_eq, if_neg hc, ih,
      List.length_cons]
    omega
  | @directive kind d s hd hs ih =>
    rw [List.append_assoc, tagLength_directive _ _ hd, ih, List.length_append]
    omega

theorem isPlain_of_isNameSymbol (c : Char) (h : isNameSymbol c = true) : isPlain c = true := by
  simp only [isNameSymbol, isAttributeNamePart, isPlain, Bool.and_eq_true, Bool.not_eq_true',
    Bool.or_eq_false_iff, bne_iff_ne, beq_eq_false_iff_ne] at h ⊢
  exact ⟨⟨h.1.2, h.2⟩, h.1.1.2⟩

theorem isPlain_of_class {p : Char → Bool} (hp : ['"', '\'', '<', '>'].all (!p ·) = true) (c : Char)
    (h : p c = true) : isPlain c = true := by
  simp only [List.all_cons, List.all_nil, Bool.and_true, Bool.and_eq_true, Bool.not_eq_true'] at hp
  simp only [isPlain, isQuote, Bool.and_eq_true, Bool.not_eq_true', Bool.or_eq_false_iff,
    bne_iff_ne, beq_eq_false_iff_ne]
  obtain ⟨hdouble, hsingle, hlt, hgt⟩ := hp
  exact ⟨⟨⟨ne_of_class h hdouble, ne_of_class h hsingle⟩, ne_of_class h hlt⟩, ne_of_class h hgt⟩

theorem all_isPlain {p : Char → Bool} {t : Text} (hp : ∀ c, p c = true → isPlain c = true)
    (h : t.all p = true) : t.all isPlain = true :=
  List.all_eq_true.2 fun c hc ↦ hp c (List.all_eq_true.1 h c hc)

theorem exists_letter_of_isTagName {name : Text} (h : isTagName name = true) :
    ∃ c s, name = c :: s ∧ isAsciiLetter c = true ∧ name.all isPlain = true := by
  cases name with
  | nil => cases h
  | cons c s =>
    rw [isTagName, Bool.and_eq_true] at h
    refine ⟨c, s, rfl, h.1, ?_⟩
    rw [List.all_cons, Bool.and_eq_true]
    exact ⟨isPlain_of_class (by decide) c h.1, all_isPlain isPlain_of_isNameSymbol h.2⟩

theorem tagLength_quote {q : Char} (r : Text) (hq : isQuote q = true) :
    tagLength 0 none (q :: r) = tagLength 0 (some q) r + 1 := by
  have hd := not_startsDirective_of_ne r (ne_of_class hq (by decide : isQuote '<' = false))
  simp only [tagLength, if_neg hd, if_pos hq]

theorem tagLength_body {body : Text} (r : Text) (h : CleanTagBody body) :
    tagLength 0 none (body ++ r) = body.length := by
  induction h with
  | close => rfl
  | selfClose => rfl
  | @blank c s hc hs ih =>
    have hc := isPlain_of_class (by decide) c hc
    have hplain := tagLength_plain (s := [c]) (s ++ r) (by simp [hc])
    rw [List.cons_append, ← List.singleton_append, hplain, ih]
    simp only [List.length_cons, List.length_nil]
    omega
  | @bare name s hn hs ih =>
    rw [List.append_assoc, tagLength_plain _ (all_isPlain isPlain_of_isNameSymbol hn), ih,
      List.length_append]
  | @valued name before after v s q hn hb ha hq hv hs ih =>
    have hplain : (name ++ before ++ "=" ++ after).all isPlain = true := by
      simp only [List.all_append, Bool.and_eq_true]
      have hblank := isPlain_of_class (p := isBlank) (by decide)
      exact ⟨⟨⟨all_isPlain isPlain_of_isNameSymbol hn, all_isPlain hblank hb⟩, rfl⟩,
        all_isPlain hblank ha⟩
    have hshape : name ++ before ++ "=" ++ after ++ q :: v ++ q :: s ++ r =
        name ++ before ++ "=" ++ after ++ q :: (v ++ q :: (s ++ r)) := by simp
    rw [hshape, tagLength_plain _ hplain, tagLength_quote _ hq, tagLength_value _ hq hv, ih]
    simp only [List.length_append, List.length_cons]
    omega
  | @directive kind d s hd hs ih =>
    rw [List.append_assoc, tagLength_directive _ _ hd, ih, List.length_append]

/-- A mark that has `<` only at its beginning does not reach into markup. -/
theorem startsWith_of_append_lt {s r pat : Text} (hs : s ≠ []) (hpat : '<' ∉ pat.tail)
    (h : startsWith (s ++ '<' :: r) pat = true) : startsWith s pat = true := by
  rcases Nat.lt_or_ge s.length pat.length with hlt | hle
  · have hpre : s ++ ['<'] <+: pat := by
      have hin : s ++ ['<'] <+: s ++ '<' :: r := ⟨r, by simp⟩
      refine List.prefix_of_prefix_length_le hin (startsWith_iff.1 h) ?_
      rw [List.length_append, List.length_singleton]
      exact hlt
    obtain ⟨u, rfl⟩ := hpre
    obtain ⟨c, s, rfl⟩ := List.exists_cons_of_ne_nil hs
    exact absurd (by simp) hpat
  · exact startsWith_of_append h hle

theorem startsMarkup_of_append_lt {s r : Text} (hs : s ≠ [])
    (h : startsMarkup (s ++ '<' :: r) = true) : startsMarkup s = true := by
  simp only [startsMarkup, Bool.or_eq_true] at h ⊢
  rcases h with (h | h) | h
  · exact .inl (.inl (startsWith_of_append_lt hs (by decide) h))
  · exact .inl (.inr (startsWith_of_append_lt hs (by decide) h))
  · right
    obtain ⟨c, u, hc, heq⟩ := startsTag_iff.1 h
    have hlt : '<' ≠ c := (ne_of_class hc (by decide)).symm
    rcases heq with heq | heq
    · have hmark : startsWith (s ++ '<' :: r) ['<', c] = true := startsWith_iff.2 ⟨u, heq.symm⟩
      obtain ⟨v, rfl⟩ := startsWith_iff.1 (startsWith_of_append_lt hs (by simpa using hlt) hmark)
      exact startsTag_iff.2 ⟨c, v, hc, .inl rfl⟩
    · have hmark : startsWith (s ++ '<' :: r) ['<', '/', c] = true :=
        startsWith_iff.2 ⟨u, heq.symm⟩
      obtain ⟨v, rfl⟩ := startsWith_iff.1 (startsWith_of_append_lt hs (by simpa using hlt) hmark)
      exact startsTag_iff.2 ⟨c, v, hc, .inr rfl⟩

theorem exists_eq_lt_of_startsMarkup {r : Text} (h : startsMarkup r = true) :
    ∃ u, r = '<' :: u := by
  simp only [startsMarkup, Bool.or_eq_true] at h
  rcases h with (h | h) | h
  · obtain ⟨u, rfl⟩ := startsWith_iff.1 h
    exact ⟨_, rfl⟩
  · obtain ⟨u, rfl⟩ := startsWith_iff.1 h
    exact ⟨_, rfl⟩
  · obtain ⟨c, u, -, rfl | rfl⟩ := startsTag_iff.1 h <;> exact ⟨_, rfl⟩

section Text

variable {t r : Text} (hr : r = [] ∨ startsMarkup r = true)

include hr

theorem not_startsMarkup_append {s : Text} (hs : s ≠ []) (h : ¬startsMarkup s = true) :
    ¬startsMarkup (s ++ r) = true := by
  rcases hr with rfl | hr
  · rwa [List.append_nil]
  · obtain ⟨u, rfl⟩ := exists_eq_lt_of_startsMarkup hr
    exact fun hout ↦ h (startsMarkup_of_append_lt hs hout)

theorem textLength_append_markup (h : holdsMarkup t = false) :
    textLength (t ++ r) = t.length := by
  induction t with
  | nil =>
    rcases hr with rfl | hr
    · rfl
    · obtain ⟨u, rfl⟩ := exists_eq_lt_of_startsMarkup hr
      rw [List.nil_append, textLength, if_pos hr, List.length_nil]
  | cons c s ih =>
    rw [holdsMarkup, Bool.or_eq_false_iff, ← Bool.not_eq_true] at h
    have hout := not_startsMarkup_append hr (List.cons_ne_nil c s) h.1
    rw [List.cons_append] at hout ⊢
    rw [textLength, if_neg hout, ih h.2, List.length_cons]

end Text

namespace Token.Clean

variable {k : Token}

theorem text_ne_nil (h : k.Clean) : k.text ≠ [] := by
  cases h with
  | text ht _ => exact ht
  | directive hd => exact hd.ne_nil
  | htmlComment | closeTag | openTag => exact List.cons_ne_nil _ _

/-- A clean token is read off whatever stands after it, a text up to the next markup. -/
theorem lexeme_append (h : k.Clean) (r : Text)
    (hr : k.kind = .text → r = [] ∨ startsMarkup r = true) :
    lexeme (k.text ++ r) = (k.kind, k.text.length) := by
  cases h with
  | @text t ht hm =>
    obtain ⟨c, s, rfl⟩ := List.exists_cons_of_ne_nil ht
    rw [holdsMarkup, Bool.or_eq_false_iff, ← Bool.not_eq_true] at hm
    have hout := not_startsMarkup_append (hr rfl) (List.cons_ne_nil c s) hm.1
    have hlen := textLength_append_markup (hr rfl) hm.2
    rw [lexeme_of_text hout]
    simp only [List.cons_append, List.drop_one, List.tail_cons, hlen, List.length_cons]
  | @directive kind d hd =>
    have hstart : startsDirective (d ++ r) = true := startsWith_append r hd.startsDirective
    rw [lexeme_of_directive hstart, hd.directiveKind_append, hd.directiveLength_append]
  | htmlComment body hc =>
    have hstart : startsHtmlComment ("<!--" ++ body ++ "-->" ++ r) = true := rfl
    have hlen : lengthThrough "-->" (body ++ ("-->" ++ r)) = some (body.length + 3) :=
      lengthThrough_append_mark (p := ['-', '-']) r (by decide) hc
    have hdrop : ("<!--" ++ body ++ "-->" ++ r).drop 4 = body ++ ("-->" ++ r) := by
      rw [← List.append_assoc]
      rfl
    rw [lexeme_of_htmlComment hstart, htmlCommentLength, hdrop, hlen]
    simp only [List.length_append, String.reduceToList, List.length_cons, List.length_nil,
      Prod.mk.injEq, true_and]
    omega
  | closeTag name hn =>
    obtain ⟨c, s, rfl, hc, hplain⟩ := exists_letter_of_isTagName hn
    have hstart : startsTag ("</" ++ c :: s ++ ">" ++ r) = true :=
      startsTag_iff.2 ⟨c, s ++ ">" ++ r, hc, .inr rfl⟩
    have hdrop : ("</" ++ c :: s ++ ">" ++ r).drop 1 = '/' :: c :: s ++ ('>' :: r) := by simp
    have hlen : tagLength 0 none ('>' :: r) = 1 := rfl
    rw [lexeme_of_tag hstart, hdrop, tagLength_plain _ (by rw [List.all_cons, hplain]; rfl), hlen]
    simp
  | @openTag name body hn hb =>
    obtain ⟨c, s, rfl, hc, hplain⟩ := exists_letter_of_isTagName hn
    have hstart : startsTag ("<" ++ c :: s ++ body ++ r) = true :=
      startsTag_iff.2 ⟨c, s ++ body ++ r, hc, .inl rfl⟩
    have hdrop : ("<" ++ c :: s ++ body ++ r).drop 1 = c :: s ++ (body ++ r) := by simp
    have hkind : (("<" ++ c :: s ++ body ++ r)[1]? == some '/') = false := by
      have hslash : ('/' == c) = false := beq_of_class hc (by decide)
      change (some c == some '/') = false
      rw [beq_eq_false_iff_ne] at hslash ⊢
      exact fun h ↦ hslash (Option.some.inj h).symm
    rw [lexeme_of_tag hstart, hdrop, tagLength_plain _ hplain, tagLength_body _ hb, hkind]
    simp
    omega

theorem startsMarkup (h : k.Clean) (hk : k.kind ≠ .text) (r : Text) :
    startsMarkup (k.text ++ r) = true := by
  by_contra hm
  have hlex := h.lexeme_append r fun hk' ↦ absurd hk' hk
  rw [lexeme_of_text hm] at hlex
  exact hk (Prod.mk.inj hlex).1.symm

theorem tokenize_append (h : k.Clean) (r : Text)
    (hr : k.kind = .text → r = [] ∨ Erb.startsMarkup r = true) :
    tokenize (k.text ++ r) = k :: tokenize r := by
  have hlex := h.lexeme_append r hr
  have hne : k.text ++ r ≠ [] := by simp [h.text_ne_nil]
  rw [tokenize_of_ne_nil hne, firstToken, afterFirst, hlex, List.take_left, List.drop_left]

end Token.Clean

/-- Clean tokens are cut off the front of a template, a text at their end if markup follows. -/
theorem tokenize_render_append {ts : List Token} (r : Text) (hclean : ∀ k ∈ ts, k.Clean)
    (hsep : ts.IsChain Token.Separate)
    (hr : ∀ k ∈ ts.getLast?, k.kind = .text → r = [] ∨ startsMarkup r = true) :
    tokenize (render ts ++ r) = ts ++ tokenize r := by
  induction ts with
  | nil => rfl
  | cons k ts ih =>
    rw [List.forall_mem_cons] at hclean
    have hshape : render (k :: ts) ++ r = k.text ++ (render ts ++ r) := by simp [render]
    cases ts with
    | nil =>
      rw [hshape]
      exact hclean.1.tokenize_append r (hr k rfl)
    | cons k' ts =>
      obtain ⟨hfirst, hrest⟩ := List.isChain_cons_cons.1 hsep
      have hk : k.kind = .text → startsMarkup (render (k' :: ts) ++ r) = true := by
        intro hk
        have hk' : k'.kind ≠ .text := hfirst.resolve_left (not_not_intro hk)
        have hstart := (hclean.2 k' (List.mem_cons_self ..)).startsMarkup hk' (render ts ++ r)
        simpa [render] using hstart
      rw [hshape, hclean.1.tokenize_append _ fun h ↦ .inr (hk h), ih hclean.2 hrest hr]
      rfl

theorem separate_of_kinds {ts us : List Token} (hkinds : us.map Token.kind = ts.map Token.kind)
    (h : ts.IsChain Token.Separate) : us.IsChain Token.Separate := by
  have hmap (vs : List Token) : vs.IsChain Token.Separate ↔
      (vs.map Token.kind).IsChain fun a b ↦ a ≠ .text ∨ b ≠ .text := by
    rw [List.isChain_map]
    rfl
  rw [hmap] at h ⊢
  rwa [hkinds]

theorem tokenize_eq_of_render {t : Text} {ts : List Token} (ht : render ts = t)
    (hclean : ∀ k ∈ ts, k.Clean) (hsep : ts.IsChain Token.Separate) : tokenize t = ts := by
  have hcut := tokenize_render_append [] hclean hsep fun _ _ _ ↦ .inl rfl
  rwa [List.append_nil, ht, tokenize_nil, List.append_nil] at hcut

/-- Clean tokens without adjacent texts are what their concatenation is cut into. -/
theorem tokenize_render_of_clean (ts : List Token) (hclean : ∀ k ∈ ts, k.Clean)
    (hsep : ts.IsChain Token.Separate) : tokenize (render ts) = ts := by
  have hcut := tokenize_render_append [] hclean hsep fun _ _ _ ↦ .inl rfl
  simpa only [List.append_nil, tokenize_nil] using hcut

theorem tokenize_render_of_clean_paragraph :
    tokenize (render [⟨.openTag, "<p class=\"<%= x %>\" hidden>"⟩, ⟨.text, "1 < 2"⟩,
      ⟨.output, "<%= '%' %>"⟩, ⟨.htmlComment, "<!-- -- -->"⟩, ⟨.closeTag, "</p>"⟩]) =
    [⟨.openTag, "<p class=\"<%= x %>\" hidden>"⟩, ⟨.text, "1 < 2"⟩,
      ⟨.output, "<%= '%' %>"⟩, ⟨.htmlComment, "<!-- -- -->"⟩, ⟨.closeTag, "</p>"⟩] := by
  refine tokenize_render_of_clean _ ?_ ?_
  · simp only [List.forall_mem_cons]
    refine ⟨?_, ?_, ?_, ?_, ?_, nofun⟩
    · have hx : CleanDirective .output "<%= x %>" := .output " x " ⟨by decide, by decide⟩
      have hhidden := CleanTagBody.bare "hidden" (by decide) CleanTagBody.close
      have hclass := CleanTagBody.valued "class" [] [] '"' (by decide) (by decide) (by decide)
        (by decide) (CleanValue.directive hx .nil) (.blank ' ' (by decide) hhidden)
      exact .openTag "p" (by decide) (.blank ' ' (by decide) hclass)
    · exact .text (by decide) (by decide)
    · exact .directive (.output " '%' " ⟨by decide, by decide⟩)
    · exact .htmlComment " -- " (by decide)
    · exact .closeTag "p" (by decide)
  · simp [Token.Separate]

end ViewForge.Erb
