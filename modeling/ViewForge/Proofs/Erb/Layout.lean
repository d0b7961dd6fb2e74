import Mathlib.Data.List.Chain
import ViewForge.Proofs.Erb.AttributeLayout

namespace ViewForge.Erb

open Text

/-- A clean token. The attributes of an opening tag are names, names with a quoted value and whole
directives. -/
structure Token.Regular (k : Token) : Prop where
  clean : k.Clean
  openTag : k.kind = .openTag → ∃ tag, OpenTagText tag k.text

def Token.laid (k : Token) : Token := ⟨k.kind, squeeze (formatToken k)⟩

structure Token.Laid (k : Token) : Prop where
  regular : k.Regular
  fixed : k.laid = k

section Token

variable {k : Token}

theorem CleanDirective.formatToken {kind : TokenKind} {d : Text} (h : CleanDirective kind d) :
    formatToken ⟨kind, d⟩ = normalizeDirective d := by
  cases h <;> rfl

theorem CleanDirective.kind_ne {kind : TokenKind} {d : Text} (h : CleanDirective kind d) :
    kind ≠ .openTag := by
  cases h <;> decide

theorem formatTag_closeTag {name : Text} (h : isTagName name = true) :
    formatTag ("</" ++ name ++ ">") = "</" ++ name ++ ">" := by
  have hparse : parseTag ("</" ++ name ++ ">") =
      { name := (parseTag ("</" ++ name ++ ">")).name, closing := true } := rfl
  rw [formatTag, hparse, parseTag_closeTag h]
  rfl

theorem squeezes_closeTag {name : Text} (h : isTagName name = true) :
    Squeezes ("</" ++ name ++ ">") ("</" ++ name ++ ">") where
  head _ := solidHead_cons _ (by decide)
  last := solidLast_concat _ (by decide)
  eq := by
    refine squeeze_eq_self fun hmem ↦ ?_
    have hname : '\n' ∈ name := by simpa using hmem
    cases (ne_end_of_isTagName h hname).1

theorem squeezes_htmlComment (body : Text) :
    Squeezes ("<!--" ++ body ++ "-->") ("<!--" ++ squeeze body ++ "-->") where
  head _ := solidHead_cons _ (by decide)
  last := SolidLast.of_ne_nil _ (solidLast_concat "--" (by decide)) (by decide)
  eq := by
    have hfirst : SolidLast "<!--" := solidLast_concat "<!-" (by decide)
    have hend : SolidHead "-->" := solidHead_cons _ (by decide)
    rw [respaces_squeeze.append_solidHead _ hend, respaces_squeeze.append_solidLast _ hfirst]
    rfl

/-- Markup is laid out by itself, as markup that stays as it is. -/
theorem Token.Regular.squeezes (h : k.Regular) (hk : k.kind ≠ .text) :
    ∃ u, Squeezes (formatToken k) u ∧ Token.Regular ⟨k.kind, u⟩ ∧
      squeeze (formatToken ⟨k.kind, u⟩) = u := by
  obtain ⟨hclean, htag⟩ := h
  cases hclean with
  | text => exact absurd rfl hk
  | @directive kind d hd =>
    obtain ⟨code, hlaid, hagain⟩ := hd.exists_laidDirective
    have hsqueezes := squeezes_laidDirective kind code
    refine ⟨laidDirective kind code, ?_, ⟨.directive hagain, fun h ↦ absurd h hd.kind_ne⟩, ?_⟩
    · rw [hd.formatToken, hlaid]
      exact hsqueezes
    · rw [hagain.formatToken, normalizeDirective_laidDirective, hsqueezes.eq]
  | htmlComment body hbody =>
    have hclose : ¬("-->" : Text) <:+: squeeze body :=
      fun hin ↦ hbody (respaces_squeeze.infix_of_infix (ink_eq_self_iff.1 rfl) hin)
    refine ⟨_, squeezes_htmlComment body, ⟨.htmlComment _ hclose, nofun⟩, ?_⟩
    refine (squeezes_htmlComment (squeeze body)).eq.trans ?_
    rw [squeeze_squeeze]
  | closeTag name hname =>
    have hformat : formatToken ⟨.closeTag, "</" ++ name ++ ">"⟩ = "</" ++ name ++ ">" :=
      formatTag_closeTag hname
    rw [hformat]
    refine ⟨_, squeezes_closeTag hname, ⟨.closeTag name hname, nofun⟩, ?_⟩
    rw [hformat, (squeezes_closeTag hname).eq]
  | openTag name hname hbody =>
    obtain ⟨tag, ht⟩ := htag rfl
    obtain ⟨hagain, hfixed⟩ := ht.laid
    refine ⟨_, ht.squeezes_formatTag, ⟨hagain.clean, fun _ ↦ ⟨_, hagain⟩⟩, ?_⟩
    refine hagain.squeezes_formatTag.eq.trans ?_
    rw [hfixed]

theorem laid_text {t : Text} (hne : t ≠ []) (hmarkup : holdsMarkup t = false)
    (hfixed : laidText t = t) : Token.Laid ⟨.text, t⟩ :=
  ⟨⟨.text hne hmarkup, nofun⟩, congrArg (Token.mk .text) hfixed⟩

theorem Token.Regular.of_text {t : Text} (h : Token.Regular ⟨.text, t⟩) :
    t ≠ [] ∧ holdsMarkup t = false := by
  cases h.clean with
  | text hne hmarkup => exact ⟨hne, hmarkup⟩
  | directive hd => cases hd

theorem Token.Regular.laid (h : k.Regular) : k.laid.Laid := by
  by_cases hk : k.kind = .text
  · obtain ⟨kind, t⟩ := k
    cases hk
    obtain ⟨hne, hmarkup⟩ := h.of_text
    refine laid_text (respaces_laidText.ne_nil hne) ?_ (laidText_laidText t)
    exact holdsMarkup_eq_false hmarkup fun p hp hin ↦ respaces_laidText.infix_of_infix hp hin
  · obtain ⟨u, hsqueezes, hregular, hfixed⟩ := h.squeezes hk
    have hlaid : k.laid = ⟨k.kind, u⟩ := by rw [Token.laid, hsqueezes.eq]
    rw [hlaid]
    refine ⟨hregular, ?_⟩
    rw [Token.laid, hfixed]

theorem Token.Laid.solidLast (h : k.Laid) (hk : k.kind ≠ .text) : SolidLast k.text := by
  obtain ⟨u, hsqueezes, -⟩ := h.regular.squeezes hk
  rw [← h.fixed]
  exact respaces_squeeze.solidLast hsqueezes.last

end Token

/-- Tokens that are laid out one by one, as they stand in a template. -/
structure LaidOut (us : List Token) : Prop where
  laid : ∀ k ∈ us, k.Laid
  separate : us.IsChain Token.Separate

section Template

variable {ts us : List Token}

theorem solidHead_flatMap {k : Token} (hk : k.kind = .text) (h : ∀ k ∈ ts, k.Regular)
    (hsep : (k :: ts).IsChain Token.Separate) : SolidHead (ts.flatMap formatToken) := by
  cases ts with
  | nil => exact nofun
  | cons k' ts =>
    have hk' : k'.kind ≠ .text :=
      (List.isChain_cons_cons.1 hsep).1.resolve_left (not_not_intro hk)
    obtain ⟨u, hsqueezes, -⟩ := (h k' List.mem_cons_self).squeezes hk'
    exact hsqueezes.head _

/-- The second pass does not look across tokens. -/
theorem squeeze_flatMap (h : ∀ k ∈ ts, k.Regular) (hsep : ts.IsChain Token.Separate) :
    squeeze (ts.flatMap formatToken) = render (ts.map Token.laid) := by
  induction ts with
  | nil => rfl
  | cons k ts ih =>
    rw [List.forall_mem_cons] at h
    have ih := ih h.2 hsep.tail
    have hstep : squeeze (formatToken k ++ ts.flatMap formatToken) =
        squeeze (formatToken k) ++ squeeze (ts.flatMap formatToken) := by
      by_cases hk : k.kind = .text
      · exact respaces_squeeze.append_solidHead _ (solidHead_flatMap hk h.2 hsep)
      · obtain ⟨u, hsqueezes, -⟩ := h.1.squeezes hk
        rw [hsqueezes.append, hsqueezes.eq]
    rw [List.flatMap_cons, hstep, ih]
    rfl

theorem format_render (h : ∀ k ∈ ts, k.Regular) (hsep : ts.IsChain Token.Separate) :
    format (render ts) =
      trimRight isBlank (dropBreak (render (ts.map Token.laid))) ++ "\n" := by
  rw [format, tokenize_eq_of_render rfl (fun k hk ↦ (h k hk).clean) hsep, tidyLines_eq,
    squeeze_flatMap h hsep, dropBreak_trimRight]

theorem laidOut_map (h : ∀ k ∈ ts, k.Regular) (hsep : ts.IsChain Token.Separate) :
    LaidOut (ts.map Token.laid) where
  laid := by
    intro k hk
    obtain ⟨k', hk', rfl⟩ := List.mem_map.1 hk
    exact (h k' hk').laid
  separate := (List.isChain_map Token.laid).2 hsep

/-- Tokens without the line break that a template may begin with. -/
def openLine : List Token → List Token
  | ⟨.text, t⟩ :: us => if (dropBreak t).isEmpty then us else ⟨.text, dropBreak t⟩ :: us
  | us => us

def withBreak (k : Token) : List Token :=
  if k.kind = .text then [⟨.text, trimRight isBlank k.text ++ "\n"⟩] else [k, ⟨.text, "\n"⟩]

def closeLine (us : List Token) : List Token :=
  us.dropLast ++ us.getLast?.elim [⟨.text, "\n"⟩] withBreak

theorem LaidOut.of_cons {k : Token} (h : LaidOut (k :: us)) : k.Laid ∧ LaidOut us :=
  ⟨h.laid k List.mem_cons_self, fun j hj ↦ h.laid j (List.mem_cons_of_mem k hj), h.separate.tail⟩

theorem LaidOut.openLine (h : LaidOut us) :
    LaidOut (openLine us) ∧ render (Erb.openLine us) = dropBreak (render us) := by
  fun_cases Erb.openLine us with
  | case1 t us hempty =>
    obtain ⟨hk, hus⟩ := h.of_cons
    have hrender : render (⟨.text, t⟩ :: us) = t ++ render us := rfl
    rw [hrender, dropBreak_append _ hk.regular.of_text.1, List.isEmpty_iff.1 hempty]
    exact ⟨hus, rfl⟩
  | case2 t us hempty =>
    obtain ⟨hk, hus⟩ := h.of_cons
    obtain ⟨hne, hmarkup⟩ := hk.regular.of_text
    have hfixed : laidText t = t := congrArg Token.text hk.fixed
    have hbreak : Token.Laid ⟨.text, dropBreak t⟩ := by
      refine laid_text (by simpa using hempty) ?_ (laidText_dropBreak hfixed)
      exact holdsMarkup_eq_false hmarkup fun p _ hin ↦ hin.trans (dropBreak_suffix t).isInfix
    have hrender : render (⟨.text, t⟩ :: us) = t ++ render us := rfl
    rw [hrender, dropBreak_append _ hne]
    refine ⟨⟨List.forall_mem_cons.2 ⟨hbreak, hus.laid⟩, ?_⟩, rfl⟩
    refine h.separate.imp_head ?_
    exact fun hsep ↦ hsep
  | case3 us hother =>
    refine ⟨h, (dropBreak_eq_self ?_).symm⟩
    cases us with
    | nil => exact nofun
    | cons k us =>
      obtain ⟨kind, t⟩ := k
      have hk : kind ≠ .text := fun hk ↦ hother t us (by rw [hk])
      obtain ⟨u, hu⟩ := exists_eq_lt_of_startsMarkup
        (h.of_cons.1.regular.clean.startsMarkup hk (render us))
      have hrender : render (⟨kind, t⟩ :: us) = t ++ render us := rfl
      rw [hrender, hu]
      exact nofun

theorem LaidOut.solidLast_render {k : Token} {init : List Token} (h : LaidOut (init ++ [k]))
    (hk : k.kind = .text) : SolidLast (render init) := by
  rcases init.eq_nil_or_concat' with rfl | ⟨init, j, rfl⟩
  · exact nofun
  · have hj : j.Laid := h.laid j (by simp)
    have hsep : Token.Separate j k := by
      have hsep := h.separate
      rw [List.append_assoc] at hsep
      exact (List.isChain_append_cons_cons.1 hsep).2.1
    have hkind : j.kind ≠ .text := hsep.resolve_right (not_not_intro hk)
    have hrender : render (init ++ [j]) = render init ++ j.text := by simp [render]
    rw [hrender]
    exact (hj.solidLast hkind).of_ne_nil _ hj.regular.clean.text_ne_nil

theorem laid_withBreak {k : Token} (h : k.Laid) : ∀ j ∈ withBreak k, j.Laid := by
  rw [withBreak]
  split
  next hk =>
    obtain ⟨kind, t⟩ := k
    cases hk
    obtain ⟨hne, hmarkup⟩ := h.regular.of_text
    rw [List.forall_mem_singleton]
    refine laid_text (by simp) ?_ (laidText_trimRight (congrArg Token.text h.fixed))
    refine holdsMarkup_eq_false hmarkup fun p hp hin ↦ ?_
    have hbreak : '\n' ∉ p := fun hmem ↦ absurd (hp _ hmem) (by decide)
    rcases infix_append_cons hbreak hin with hin | hin
    · exact hin.trans (trimRight_isInfix t)
    · exact hin.trans List.nil_infix
  next =>
    rw [List.forall_mem_cons, List.forall_mem_singleton]
    exact ⟨h, laid_text (by decide) (by decide) (by decide)⟩

theorem LaidOut.closeLine (h : LaidOut us) :
    LaidOut (closeLine us) ∧ render (Erb.closeLine us) = trimRight isBlank (render us) ++ "\n" := by
  rcases us.eq_nil_or_concat' with rfl | ⟨init, k, rfl⟩
  · refine ⟨⟨?_, .singleton _⟩, rfl⟩
    exact List.forall_mem_singleton.2 (laid_text (by decide) (by decide) (by decide))
  have hclose : Erb.closeLine (init ++ [k]) = init ++ withBreak k := by simp [Erb.closeLine]
  have hrender : render (init ++ [k]) = render init ++ k.text := by simp [render]
  obtain ⟨hinit, hk⟩ := List.forall_mem_append.1 h.laid
  obtain ⟨hchain, -, hsep⟩ := List.isChain_append.1 h.separate
  rw [List.forall_mem_singleton] at hk
  rw [hclose, hrender]
  refine ⟨⟨List.forall_mem_append.2 ⟨hinit, laid_withBreak hk⟩, List.isChain_append.2 ?_⟩, ?_⟩
  · refine ⟨hchain, ?_, fun x hx y hy ↦ ?_⟩
    · rw [withBreak]
      split
      · exact .singleton _
      next hkind => exact List.isChain_pair.2 (.inl hkind)
    · have hkind : y.kind = k.kind := by
        rw [withBreak] at hy
        split at hy
        next hkind =>
          cases hy
          exact hkind.symm
        next =>
          cases hy
          rfl
      have hsep := hsep x hx k rfl
      rwa [Token.Separate, hkind]
  · rw [withBreak]
    split
    next hkind =>
      rw [trimRight_append_solidLast _ (h.solidLast_render hkind)]
      simp [render]
    next hkind =>
      have hlast := (hk.solidLast hkind).of_ne_nil (render init) hk.regular.clean.text_ne_nil
      rw [trimRight_eq_self_iff.2 hlast]
      simp [render]

theorem LaidOut.map_laid (h : LaidOut us) : us.map Token.laid = us :=
  (List.map_congr_left fun k hk ↦ (h.laid k hk).fixed).trans (List.map_id us)

def layout (ts : List Token) : List Token := closeLine (openLine (ts.map Token.laid))

theorem laidOut_layout (h : ∀ k ∈ ts, k.Regular) (hsep : ts.IsChain Token.Separate) :
    LaidOut (layout ts) ∧ render (layout ts) = format (render ts) := by
  obtain ⟨hopen, hrender⟩ := (laidOut_map h hsep).openLine
  obtain ⟨hclose, hformat⟩ := hopen.closeLine
  refine ⟨hclose, ?_⟩
  rw [layout, hformat, hrender, format_render h hsep]

/-- Laying out a template that is laid out changes nothing. -/
theorem format_format (ts : List Token) (h : ∀ k ∈ ts, k.Regular)
    (hsep : ts.IsChain Token.Separate) : format (format (render ts)) = format (render ts) := by
  obtain ⟨hlaid, hrender⟩ := laidOut_layout h hsep
  have hsqueezed : squeeze (render (ts.map Token.laid)) = render (ts.map Token.laid) := by
    rw [← squeeze_flatMap h hsep, squeeze_squeeze]
  have hagain := format_render (fun k hk ↦ (hlaid.laid k hk).regular) hlaid.separate
  rw [hlaid.map_laid, hrender] at hagain
  rw [hagain, format_render h hsep, trimEnds_append_break hsqueezed]

def unevenParagraph : List Token :=
  [⟨.text, "\n "⟩, ⟨.openTag, "<p  class = '<%=x%>\n\nb' hidden >"⟩, ⟨.text, "a \n\n b"⟩,
    ⟨.htmlComment, "<!-- <%- -%> -->"⟩, ⟨.code, "<% if x\n %>"⟩, ⟨.closeTag, "</p>"⟩]

theorem regular_unevenParagraph : ∀ k ∈ unevenParagraph, k.Regular := by
  simp only [unevenParagraph, List.forall_mem_cons]
  refine ⟨⟨.text (by decide) (by decide), nofun⟩, ?_, ⟨.text (by decide) (by decide), nofun⟩,
    ⟨.htmlComment " <%- -%> " (by decide), nofun⟩, ?_, ⟨.closeTag "p" (by decide), nofun⟩, nofun⟩
  · have hx : CleanDirective .output "<%=x%>" := .output "x" ⟨by decide, by decide⟩
    have hb : CleanValue '\'' "\n\nb" :=
      .char (by decide) (by decide) (.char (by decide) (by decide)
        (.char (by decide) (by decide) .nil))
    have hhidden : TagLayout [{ name := "hidden" }] false "hidden " :=
      .bare (by decide) (by rintro _ ⟨⟩; exact .inl (by decide)) (.blank (by decide) .nil)
    have hclass : TagLayout _ false "class = '<%=x%>\n\nb' hidden " :=
      .valued "class" " " " " (by decide) (by decide) (by decide) (by decide)
        (.directive hx hb) (.blank (by decide) hhidden)
    have hinner : TagLayout _ false "  class = '<%=x%>\n\nb' hidden " :=
      .blank (c := ' ') (by decide) (.blank (c := ' ') (by decide) hclass)
    have hp := @OpenTagText.mk { name := "p", attributes := _ } _ (by decide) rfl
      (by rintro _ ⟨⟩; exact .inl (by decide)) hinner
    exact ⟨hp.clean, fun _ ↦ ⟨_, hp⟩⟩
  · exact ⟨.directive (.code " if x\n " ⟨by decide, by decide⟩ (by decide) (by decide)), nofun⟩

theorem isChain_unevenParagraph : unevenParagraph.IsChain Token.Separate := by
  simp [unevenParagraph, Token.Separate]

theorem format_format_unevenParagraph :
    format (format (render unevenParagraph)) = format (render unevenParagraph) :=
  format_format unevenParagraph regular_unevenParagraph isChain_unevenParagraph

end Template

end ViewForge.Erb
