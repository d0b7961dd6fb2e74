import ViewForge.Proofs.Erb.Layout

namespace ViewForge.Erb

open Text

def Chunk.body? : Chunk → Option Text
  | .plain _ => none
  | .directive body => some body

def directiveBodies (t : Text) : List Text := (chunks t).filterMap Chunk.body?

def Untrimmed (t : Text) : Prop :=
  ∀ body ∈ directiveBodies t, body.head? ≠ some '-' ∧ body.getLast? ≠ some '-'

instance : DecidablePred Untrimmed := fun t ↦
  inferInstanceAs (Decidable (∀ body ∈ directiveBodies t, _))

section Bodies

variable {c q : Char} {p r s v : Text} {kind : TokenKind} {d : Text}

theorem directiveBodies_cons (h : ¬startsDirective (c :: r) = true) :
    directiveBodies (c :: r) = directiveBodies r := by
  rw [directiveBodies, chunks_cons h, directiveBodies]
  cases chunks r with
  | nil => rfl
  | cons chunk rest => cases chunk <;> rfl

theorem directiveBodies_plain (r : Text) (hp : '<' ∉ p) :
    directiveBodies (p ++ r) = directiveBodies r := by
  induction p with
  | nil => rfl
  | cons c p ih =>
    rw [List.mem_cons, not_or] at hp
    rw [List.cons_append, directiveBodies_cons (not_startsDirective_of_ne _ (Ne.symm hp.1)),
      ih hp.2]

theorem CleanDirective.directiveBodies_append (h : CleanDirective kind d) (r : Text) :
    directiveBodies (d ++ r) = directiveBodies d ++ directiveBodies r := by
  obtain ⟨body, rfl, hbody⟩ := h.exists_eq_append
  have hself := chunks_directive [] hbody
  rw [List.append_nil] at hself
  rw [directiveBodies, chunks_directive r hbody, directiveBodies, hself]
  rfl

theorem CleanValue.directiveBodies_append (h : CleanValue q v) (hq : isQuote q = true) (r : Text) :
    directiveBodies (v ++ q :: r) = directiveBodies v ++ directiveBodies r := by
  induction h with
  | nil =>
    have hd := not_startsDirective_of_ne r (ne_of_class hq (by decide : isQuote '<' = false))
    exact directiveBodies_cons hd
  | char _ hd _ ih =>
    have hout := not_startsDirective_append_cons r
      (ne_of_class hq (by decide : isQuote '%' = false)) hd
    rw [List.cons_append, directiveBodies_cons hout, directiveBodies_cons hd, ih]
  | directive hd _ ih =>
    rw [List.append_assoc, hd.directiveBodies_append, hd.directiveBodies_append, ih,
      List.append_assoc]

theorem not_mem_of_blank {w : Text} (h : w.all isBlank = true) : '<' ∉ w :=
  fun hmem ↦ absurd (List.all_eq_true.1 h _ hmem) (by decide)

theorem not_mem_of_isAttributeName {name : Text} (h : isAttributeName name = true) :
    '<' ∉ name := by
  obtain ⟨c, s, rfl, hs⟩ := exists_cons_of_isAttributeName h
  intro hmem
  cases hs _ hmem

theorem directiveBodies_valued {name before after : Text} (hn : isAttributeName name = true)
    (hb : before.all isBlank = true) (ha : after.all isBlank = true) (hq : isQuote q = true)
    (hv : CleanValue q v) (r : Text) :
    directiveBodies (name ++ before ++ "=" ++ after ++ q :: v ++ q :: r) =
      directiveBodies v ++ directiveBodies r := by
  have hplain : '<' ∉ name ++ before ++ "=" ++ after ++ [q] := by
    simp only [List.mem_append, not_or]
    refine ⟨⟨⟨⟨not_mem_of_isAttributeName hn, not_mem_of_blank hb⟩, by decide⟩,
      not_mem_of_blank ha⟩, fun hmem ↦ ?_⟩
    rw [← List.mem_singleton.1 hmem] at hq
    cases hq
  have hshape : name ++ before ++ "=" ++ after ++ q :: v ++ q :: r =
      name ++ before ++ "=" ++ after ++ [q] ++ (v ++ q :: r) := by simp
  rw [hshape, directiveBodies_plain _ hplain, hv.directiveBodies_append hq]

theorem directiveBodies_render {name : Text} (hn : isAttributeName name = true)
    (hq : isQuote q = true) (hv : CleanValue q v) :
    directiveBodies (TagAttribute.render { name, value := some v, quote := q }) =
      directiveBodies v := by
  have hnil : ([] : Text).all isBlank = true := rfl
  have hvalued := directiveBodies_valued hn hnil hnil hq hv []
  simpa [TagAttribute.render, directiveBodies, chunks, chunksFrom] using hvalued

/-- The directives in a tag are those of its attributes. -/
theorem TagLayout.directiveBodies_append {attributes : List TagAttribute} {closed : Bool}
    {inner : Text} (h : TagLayout attributes closed inner) (hs : '<' ∉ s) :
    directiveBodies (inner ++ s) = attributes.flatMap fun a ↦ directiveBodies a.render := by
  have hplain {p : Text} (hp : '<' ∉ p) : directiveBodies p = [] := by
    have hnil := directiveBodies_plain [] hp
    rwa [List.append_nil] at hnil
  induction h with
  | nil => exact hplain hs
  | slash => exact hplain (List.not_mem_cons_of_ne_of_not_mem (by decide) hs)
  | @blank _ _ c r hc _ ih =>
    have hd := not_startsDirective_of_ne (r ++ s) (ne_of_class hc (by decide : isBlank '<' = false))
    rw [List.cons_append, directiveBodies_cons hd, ih]
  | bare hn _ _ ih =>
    have hname := not_mem_of_isAttributeName hn
    rw [List.append_assoc, directiveBodies_plain _ hname, ih, List.flatMap_cons]
    exact (congrArg (· ++ _) (hplain hname)).symm
  | valued _ _ _ hn hb ha hq hv _ ih =>
    rw [List.append_assoc, List.cons_append, directiveBodies_valued hn hb ha hq hv, ih,
      List.flatMap_cons, directiveBodies_render hn hq hv]
  | directive hd _ ih =>
    rw [List.append_assoc, hd.directiveBodies_append, ih, List.flatMap_cons]
    rfl

end Bodies

section Ink

variable {q : Char} {v : Text} {kind : TokenKind} {d t : Text} {a : TagAttribute} {tag : Tag}

theorem untrimmed_body {body : Text} (hbody : ¬("%>" : Text) <:+: body)
    (h : Untrimmed ("<%" ++ body ++ "%>")) :
    body.head? ≠ some '-' ∧ body.getLast? ≠ some '-' := by
  have hself := chunks_directive [] hbody
  rw [List.append_nil] at hself
  apply h body
  rw [directiveBodies, hself]
  exact List.mem_cons_self

theorem CleanDirective.ink_normalizeDirective (h : CleanDirective kind d) (hu : Untrimmed d) :
    ink (normalizeDirective d) = ink d := by
  obtain ⟨body, rfl, hbody⟩ := h.exists_eq_append
  obtain ⟨hhead, hlast⟩ := untrimmed_body hbody hu
  rw [normalizeDirective_eq, ink_respelled hhead hlast, ink_append, ink_append]
  rfl

theorem CleanValue.ink_respell (h : CleanValue q v) (hu : Untrimmed v) :
    ink (respell v) = ink v := by
  induction h with
  | nil => rfl
  | @char c r _ hd _ ih =>
    rw [Untrimmed, directiveBodies_cons hd] at hu
    rw [respell_cons hd, ← List.singleton_append, ink_append, ih hu, ← ink_append]
    rfl
  | directive hd _ ih =>
    rw [Untrimmed, hd.directiveBodies_append, List.forall_mem_append] at hu
    rw [respell_directive _ hd, ink_append, hd.ink_normalizeDirective hu.1, ih hu.2, ← ink_append]

theorem CleanAttribute.ink_laidAttribute (h : CleanAttribute a) (hu : Untrimmed a.render) :
    ink (laidAttribute a).render = ink a.render := by
  cases h with
  | bare hn => rw [laidAttribute_named hn]; rfl
  | @valued name v q hn hq hv =>
    rw [Untrimmed, directiveBodies_render hn hq hv] at hu
    have hrender (u : Text) : TagAttribute.render { name, value := some u, quote := q } =
        name ++ "=" ++ [q] ++ (u ++ [q]) := by simp [TagAttribute.render]
    have hvalue : ink (laidValue v) = ink v := (respaces_squeeze.ink_eq _).trans (hv.ink_respell hu)
    rw [laidAttribute_named hn, Option.map_some, hrender, hrender, ink_append,
      ink_append (laidValue v), hvalue, ← ink_append v, ← ink_append]
  | directive hd =>
    rw [laidAttribute_directive hd]
    exact hd.ink_normalizeDirective hu

/-- What a tag shows of an attribute: its name, a directive up to white space. -/
def TagAttribute.outline (a : TagAttribute) : Text := if a.isDirective then ink a.name else a.name

theorem CleanDirective.outline (h : CleanDirective kind d) :
    TagAttribute.outline { name := d } = ink d := if_pos h.startsDirective

theorem CleanAttribute.outline_laidAttribute (h : CleanAttribute a) (hu : Untrimmed a.render) :
    (laidAttribute a).outline = a.outline := by
  cases h with
  | bare hn => rw [laidAttribute_named hn]; rfl
  | valued hn hq hv =>
    rw [laidAttribute_named hn]
    rfl
  | directive hd =>
    obtain ⟨code, hlaid, hclean⟩ := hd.exists_laidDirective
    have hink := hd.ink_normalizeDirective hu
    rw [hlaid] at hink
    rw [laidAttribute_directive hd, hlaid, hclean.outline, hd.outline, hink]

theorem TagLayout.ink_eq {attributes : List TagAttribute} {closed : Bool} {inner : Text}
    (h : TagLayout attributes closed inner) :
    ink inner = (attributes.flatMap fun a ↦ ink a.render) ++ ink (slashIf closed) := by
  induction h with
  | nil => rfl
  | slash => rfl
  | blank hc _ ih => rw [ink_cons_of_blank hc, ih]
  | bare _ _ _ ih =>
    rw [ink_append, ih, List.flatMap_cons, List.append_assoc]
    rfl
  | @valued _ _ name before after v r q _ hb ha _ _ _ ih =>
    have hbefore : ink before = [] := ink_eq_nil_iff.2 (List.all_eq_true.1 hb)
    have hafter : ink after = [] := ink_eq_nil_iff.2 (List.all_eq_true.1 ha)
    have hshape : name ++ before ++ "=" ++ after ++ q :: v ++ q :: r =
        name ++ before ++ "=" ++ after ++ (q :: v ++ [q]) ++ r := by simp
    have hrender : TagAttribute.render { name, value := some v, quote := q } =
        name ++ "=" ++ (q :: v ++ [q]) := by simp [TagAttribute.render]
    rw [hshape, ink_append _ r, ih, List.flatMap_cons, List.append_assoc, hrender]
    simp only [ink_append, hbefore, hafter, List.nil_append, List.append_assoc]
  | directive _ _ ih =>
    rw [ink_append, ih, List.flatMap_cons, List.append_assoc]
    rfl

theorem OpenTagText.ink_eq (h : OpenTagText tag t) :
    ink t = ink ("<" ++ tag.name) ++
      ((tag.attributes.flatMap fun a ↦ ink a.render) ++ ink (slashIf tag.selfClosing)) ++ ">" := by
  obtain ⟨-, -, -, hlayout⟩ := h
  rw [ink_append, ink_append, hlayout.ink_eq]
  rfl

theorem OpenTagText.cleanAttribute (h : OpenTagText tag t) :
    ∀ a ∈ tag.attributes, CleanAttribute a := by
  obtain ⟨-, -, -, hlayout⟩ := h
  exact hlayout.cleanAttribute

theorem OpenTagText.untrimmed (h : OpenTagText tag t) (hu : Untrimmed t) :
    ∀ a ∈ tag.attributes, Untrimmed a.render := by
  obtain ⟨hname, -, -, hlayout⟩ := h
  rename_i inner
  have hplain : '<' ∉ tag.name :=
    fun hmem ↦ absurd (isNameSymbol_of_mem hname hmem) (by decide)
  have hstart : ¬startsDirective ('<' :: (tag.name ++ (inner ++ ">"))) = true := by
    obtain ⟨c, s, heq, hc, -⟩ := exists_letter_of_isTagName hname
    rw [startsDirective_cons_iff, heq]
    rintro ⟨-, hpercent⟩
    exact ne_of_class hc (by decide) (List.cons_prefix_cons.1 hpercent).1.symm
  have hshape : "<" ++ tag.name ++ inner ++ ">" = '<' :: (tag.name ++ (inner ++ ">")) := by simp
  rw [Untrimmed, hshape, directiveBodies_cons hstart, directiveBodies_plain _ hplain,
    hlayout.directiveBodies_append (by decide)] at hu
  intro a ha body hbody
  exact hu body (List.mem_flatMap.2 ⟨a, ha, hbody⟩)

/-- The layout of a tag keeps what is not white space. -/
theorem OpenTagText.ink_laidTag (h : OpenTagText tag t) (hu : Untrimmed t) :
    ink (laidTag tag).render = ink t := by
  have hattributes : (laidTag tag).attributes.flatMap (fun a ↦ ink a.render) =
      tag.attributes.flatMap fun a ↦ ink a.render := by
    rw [laidTag, List.flatMap_map]
    refine List.flatMap_congr fun a ha ↦ ?_
    exact (h.cleanAttribute a ha).ink_laidAttribute (h.untrimmed hu a ha)
  rw [h.laid.1.ink_eq, hattributes, h.ink_eq]
  rfl

end Ink

def Tag.outline (tag : Tag) : Text × List Text :=
  (tag.name, tag.attributes.map TagAttribute.outline)

def Token.outline (k : Token) : TokenKind × Option (Text × List Text) :=
  match k.kind with
  | .openTag | .closeTag => (k.kind, some (parseTag k.text).outline)
  | _ => (k.kind, none)

def Token.isSpace (k : Token) : Bool := k.kind == .text && isBlankText k.text

def outline (ts : List Token) : List (TokenKind × Option (Text × List Text)) :=
  (ts.filter (!·.isSpace)).map Token.outline

section Token

variable {k : Token} {ts us : List Token}

theorem OpenTagText.outline_laidTag {tag : Tag} {t : Text} (h : OpenTagText tag t)
    (hu : Untrimmed t) : (laidTag tag).outline = tag.outline := by
  rw [Tag.outline, laidTag, List.map_map, Tag.outline]
  refine congrArg (Prod.mk tag.name) (List.map_congr_left fun a ha ↦ ?_)
  exact (h.cleanAttribute a ha).outline_laidAttribute (h.untrimmed hu a ha)

/-- The layout of a token keeps what is not white space, and what the token shows. -/
theorem Token.Regular.content_laid (h : k.Regular)
    (hu : k.kind ≠ .htmlComment → Untrimmed k.text) :
    ink k.laid.text = ink k.text ∧ k.laid.outline = k.outline := by
  obtain ⟨hclean, htag⟩ := h
  cases hclean with
  | text => exact ⟨respaces_laidText.ink_eq _, rfl⟩
  | @directive kind d hd =>
    have hkind : kind ≠ .htmlComment := by cases hd <;> decide
    refine ⟨(respaces_squeeze.ink_eq _).trans ?_, ?_⟩
    · rw [hd.formatToken, hd.ink_normalizeDirective (hu hkind)]
    · cases hd <;> rfl
  | htmlComment => exact ⟨respaces_squeeze.ink_eq _, rfl⟩
  | closeTag name hname =>
    have hlaid : Token.laid ⟨.closeTag, "</" ++ name ++ ">"⟩ =
        ⟨.closeTag, "</" ++ name ++ ">"⟩ := by
      refine congrArg (Token.mk .closeTag) ((congrArg squeeze (formatTag_closeTag hname)).trans ?_)
      exact (squeezes_closeTag hname).eq
    rw [hlaid]
    exact ⟨rfl, rfl⟩
  | @openTag name body hname hbody =>
    obtain ⟨tag, ht⟩ := htag rfl
    have hu := hu nofun
    have hlaid : Token.laid ⟨.openTag, "<" ++ name ++ body⟩ = ⟨.openTag, (laidTag tag).render⟩ :=
      congrArg (Token.mk .openTag) ht.squeezes_formatTag.eq
    rw [hlaid]
    refine ⟨ht.ink_laidTag hu, ?_⟩
    rw [Token.outline, Token.outline]
    simp only [ht.parseTag_eq, ht.laid.1.parseTag_eq, ht.outline_laidTag hu]

theorem outline_cons (k : Token) (us : List Token) :
    outline (k :: us) = if k.isSpace then outline us else k.outline :: outline us := by
  rw [outline, List.filter_cons]
  cases k.isSpace <;> rfl

theorem outline_append (us vs : List Token) : outline (us ++ vs) = outline us ++ outline vs := by
  rw [outline, List.filter_append, List.map_append]
  rfl

theorem isSpace_eq (k : Token) : k.isSpace = (k.kind == .text && (ink k.text).isEmpty) := by
  rw [Token.isSpace, isBlankText_eq]

/-- Tokens of one kind with the same ink are both white space or neither is. -/
theorem outline_cons_congr {j : Token} (hkind : j.kind = k.kind) (hink : ink j.text = ink k.text)
    (hshow : j.outline = k.outline) (hrest : outline ts = outline us) :
    outline (j :: ts) = outline (k :: us) := by
  rw [outline_cons, outline_cons, isSpace_eq, isSpace_eq, hkind, hink, hshow, hrest]

theorem ink_dropBreak (t : Text) : ink (dropBreak t) = ink t := by
  fun_cases dropBreak t with
  | case1 t => exact (ink_cons_of_blank (by decide)).symm
  | case2 => rfl

theorem outline_openLine (us : List Token) : outline (openLine us) = outline us := by
  fun_cases openLine us with
  | case1 t us hempty =>
    have hspace : Token.isSpace ⟨.text, t⟩ = true := by
      rw [isSpace_eq, ← ink_dropBreak, List.isEmpty_iff.1 hempty]
      rfl
    rw [outline_cons, if_pos hspace]
  | case2 t us => exact outline_cons_congr rfl (ink_dropBreak t) rfl rfl
  | case3 => rfl

theorem outline_withBreak (k : Token) : outline (withBreak k) = outline [k] := by
  rw [withBreak]
  split
  next hk =>
    obtain ⟨kind, t⟩ := k
    cases hk
    refine outline_cons_congr rfl ?_ rfl rfl
    rw [ink_append, ink_trimRight]
    exact List.append_nil _
  next => exact (outline_append [k] _).trans (List.append_nil _)

theorem outline_closeLine (us : List Token) : outline (closeLine us) = outline us := by
  rcases us.eq_nil_or_concat' with rfl | ⟨init, k, rfl⟩
  · rfl
  · have hclose : closeLine (init ++ [k]) = init ++ withBreak k := by simp [closeLine]
    rw [hclose, outline_append, outline_append, outline_withBreak]

section Content

variable (h : ∀ k ∈ ts, k.Regular) (hu : ∀ k ∈ ts, k.kind ≠ .htmlComment → Untrimmed k.text)

include h hu

theorem outline_map_laid : outline (ts.map Token.laid) = outline ts := by
  induction ts with
  | nil => rfl
  | cons k ts ih =>
    rw [List.forall_mem_cons] at h hu
    obtain ⟨hink, hshow⟩ := h.1.content_laid hu.1
    exact outline_cons_congr rfl hink hshow (ih h.2 hu.2)

theorem ink_map_laid : ink (render (ts.map Token.laid)) = ink (render ts) := by
  rw [render, List.flatMap_map, ink_flatMap, render, ink_flatMap]
  exact List.flatMap_congr fun k hk ↦ ((h k hk).content_laid (hu k hk)).1

end Content

/-- The layout of a template without trim marks changes only white space. It keeps what the tokens
show, and leaves no blank line and one line break at the end. -/
theorem format_content (ts : List Token) (h : ∀ k ∈ ts, k.Regular)
    (hsep : ts.IsChain Token.Separate)
    (hu : ∀ k ∈ ts, k.kind ≠ .htmlComment → Untrimmed k.text) :
    ink (format (render ts)) = ink (render ts) ∧
    outline (tokenize (format (render ts))) = outline (tokenize (render ts)) ∧
    (isBlankText (render ts) = false → ∃ body, format (render ts) = body ++ "\n" ∧
      body.getLast? ≠ some '\n' ∧ ∀ l ∈ lines body, isBlankText l = false) := by
  obtain ⟨hlaid, hrender⟩ := laidOut_layout h hsep
  have hink : ink (format (render ts)) = ink (render ts) := by
    rw [format_render h hsep, ink_append, ink_trimRight, ink_dropBreak, ink_map_laid h hu]
    exact List.append_nil _
  refine ⟨hink, ?_, fun hblank ↦ exists_lines_tidyLines _ ?_⟩
  · have hclean : ∀ k ∈ layout ts, k.Clean := fun k hk ↦ (hlaid.laid k hk).regular.clean
    rw [tokenize_eq_of_render hrender hclean hlaid.separate,
      tokenize_eq_of_render rfl (fun k hk ↦ (h k hk).clean) hsep, layout, outline_closeLine,
      outline_openLine, outline_map_laid h hu]
  · rwa [isBlankText_eq, ← format, hink, ← isBlankText_eq]

theorem format_content_unevenParagraph :
    ink (format (render unevenParagraph)) = ink (render unevenParagraph) ∧
    outline (tokenize (format (render unevenParagraph))) =
      outline (tokenize (render unevenParagraph)) ∧
    ∃ body, format (render unevenParagraph) = body ++ "\n" ∧ body.getLast? ≠ some '\n' ∧
      ∀ l ∈ lines body, isBlankText l = false := by
  obtain ⟨hink, hshow, hlines⟩ := format_content unevenParagraph regular_unevenParagraph
    isChain_unevenParagraph (by decide)
  exact ⟨hink, hshow, hlines (by decide)⟩

end Token

end ViewForge.Erb
