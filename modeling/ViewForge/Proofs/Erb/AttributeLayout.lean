import ViewForge.Proofs.Erb.DirectiveLayout
import ViewForge.Proofs.Erb.TagLayout

namespace ViewForge.Erb

open Text

section Chunks

variable {body r : Text} {c : Char}

theorem breakOn_eq_map {pat : Text} (hpat : pat ≠ []) (t : Text) :
    breakOn pat t =
      (lengthThrough pat t).map fun n ↦ (t.take (n - pat.length), t.drop n) := by
  induction t with
  | nil => rw [breakOn, if_neg (by simpa using hpat)]; rfl
  | cons c r ih =>
    rw [breakOn, lengthThrough]
    split
    · simp
    · rw [ih]
      cases hn : lengthThrough pat r with
      | none => rfl
      | some n =>
        have hle : n + 1 - pat.length = (n - pat.length) + 1 := by
          have hbound := (lengthThrough_bounds hn).1
          omega
        simp [hle]

theorem occursIn_iff {pat t : Text} (hpat : pat ≠ []) : occursIn pat t = true ↔ pat <:+: t := by
  rw [occursIn, breakOn_eq_map hpat, Option.isSome_map, Option.isSome_iff_ne_none, ne_eq,
    lengthThrough_eq_none_iff hpat, not_not]

theorem chunksFrom_length_append (s r : Text) :
    chunksFrom s.length (s ++ r) = chunksFrom 0 r := by
  induction s with
  | nil => rfl
  | cons c s ih =>
    rw [List.length_cons, List.cons_append, chunksFrom]
    exact ih

theorem chunks_cons (h : ¬startsDirective (c :: r) = true) :
    chunks (c :: r) = consPlain c (chunks r) := by
  rw [chunks, chunksFrom, if_neg h, chunks]

theorem chunks_directive (r : Text) (h : ¬("%>" : Text) <:+: body) :
    chunks ("<%" ++ body ++ "%>" ++ r) = .directive body :: chunks r := by
  have hlen : lengthThrough "%>" (body ++ ("%>" ++ r)) = some (body.length + 2) :=
    lengthThrough_append_mark (p := ['%']) r (by decide) h
  have hbreak : breakOn "%>" (body ++ ("%>" ++ r)) = some (body, r) := by
    rw [breakOn_eq_map percentClose_ne_nil, hlen]
    simp
  have hshape : ("<%" ++ body ++ "%>" ++ r : Text) = '<' :: '%' :: (body ++ ("%>" ++ r)) := by simp
  have hskip : '%' :: (body ++ ("%>" ++ r)) = ('%' :: body ++ "%>") ++ r := by simp
  have hrest := chunksFrom_length_append ('%' :: body ++ "%>") r
  have hcount : ('%' :: body ++ "%>" : Text).length = body.length + 3 := by simp
  rw [hcount] at hrest
  rw [hshape, chunks, chunksFrom, if_pos (by rfl), List.drop_one, List.tail_cons, hbreak, hskip]
  exact congrArg (Chunk.directive body :: ·) hrest

def respell (t : Text) : Text := mapDirectives formatMarkers spacedDirective t

section Directives

variable (markers : Text) (f : Text → Text → Text)

theorem mapDirectives_cons (h : ¬startsDirective (c :: r) = true) :
    mapDirectives markers f (c :: r) = c :: mapDirectives markers f r := by
  rw [mapDirectives, chunks_cons h, mapDirectives]
  cases chunks r with
  | nil => rfl
  | cons chunk rest => cases chunk <;> rfl

theorem mapDirectives_directive (r : Text) (h : ¬("%>" : Text) <:+: body) :
    mapDirectives markers f ("<%" ++ body ++ "%>" ++ r) =
      f (marked markers body).1 (marked markers body).2 ++ mapDirectives markers f r := by
  rw [mapDirectives, chunks_directive r h]
  rfl

/-- Where every directive is written as markup, no `%` comes to stand in front. -/
theorem prefix_of_mapDirectives {q : Char} {v : Text} (hf : ∀ m code, ['<'] <+: f m code)
    (h : CleanValue q v) (hv : ['%'] <+: mapDirectives markers f v) : ['%'] <+: v := by
  cases h with
  | nil => exact hv
  | char _ hd _ =>
    rw [mapDirectives_cons markers f hd] at hv
    rw [List.cons_prefix_cons] at hv ⊢
    exact ⟨hv.1, List.nil_prefix⟩
  | directive hd _ =>
    obtain ⟨body, rfl, hbody⟩ := hd.exists_eq_append
    rw [mapDirectives_directive markers f _ hbody] at hv
    obtain ⟨s, hs⟩ := hf (marked markers body).1 (marked markers body).2
    rw [← hs] at hv
    exact absurd (List.cons_prefix_cons.1 hv).1 (by decide)

end Directives

theorem respell_cons (h : ¬startsDirective (c :: r) = true) :
    respell (c :: r) = c :: respell r := mapDirectives_cons formatMarkers spacedDirective h

theorem respell_directive {kind : TokenKind} {d : Text} (r : Text) (h : CleanDirective kind d) :
    respell (d ++ r) = normalizeDirective d ++ respell r := by
  obtain ⟨body, rfl, hbody⟩ := h.exists_eq_append
  rw [respell, mapDirectives_directive _ _ r hbody, normalizeDirective_eq]
  rfl

end Chunks

section Value

variable {q : Char} {v : Text}

def laidValue (v : Text) : Text := squeeze (respell v)

theorem startsDirective_cons_iff {c : Char} {r : Text} :
    startsDirective (c :: r) = true ↔ c = '<' ∧ ['%'] <+: r := by
  rw [startsDirective, startsWith_iff]
  exact List.cons_prefix_cons.trans (and_congr_left' eq_comm)

/-- A laid out value is clean, and its directives are laid out already. -/
theorem CleanValue.laid (h : CleanValue q v) :
    CleanValue q (laidValue v) ∧ respell (laidValue v) = laidValue v := by
  induction h with
  | nil => exact ⟨.nil, rfl⟩
  | @char c r hc hd hr ih =>
    rw [laidValue, respell_cons hd, squeeze]
    split
    · exact ih
    · have hstart : ¬startsDirective (c :: laidValue r) = true := by
        intro hstart
        obtain ⟨hlt, hpercent⟩ := startsDirective_cons_iff.1 hstart
        have hpercent := respaces_squeeze.prefix_of_prefix (ink_eq_self_iff.1 rfl) hpercent
        exact hd (startsDirective_cons_iff.2
          ⟨hlt, prefix_of_mapDirectives _ _ (fun _ _ ↦ ⟨_, rfl⟩) hr hpercent⟩)
      exact ⟨.char hc hstart ih.1, (respell_cons hstart).trans (congrArg (c :: ·) ih.2)⟩
  | @directive kind d r hd hr ih =>
    obtain ⟨code, hlaid, hclean⟩ := hd.exists_laidDirective
    rw [laidValue, respell_directive r hd, hlaid, (squeezes_laidDirective _ code).append]
    refine ⟨.directive hclean ih.1, ?_⟩
    rw [respell_directive _ hclean, normalizeDirective_laidDirective]
    exact congrArg _ ih.2

theorem CleanValue.laidValue_laidValue (h : CleanValue q v) :
    laidValue (laidValue v) = laidValue v := by
  nth_rewrite 1 [laidValue]
  rw [h.laid.2, laidValue, squeeze_squeeze]

end Value

section Attribute

variable {a : TagAttribute}

def laidAttribute (a : TagAttribute) : TagAttribute :=
  { formatAttribute a with value := (formatAttribute a).value.map squeeze }

section Format

variable {name : Text} (h : isAttributeName name = true) (value : Option Text) (quote : Char)

include h

theorem formatAttribute_named :
    formatAttribute { name, value, quote } = { name, value := value.map respell, quote } := by
  have hnamed : ¬TagAttribute.isDirective { name, value, quote } = true := by
    obtain ⟨c, s, rfl, hs⟩ := exists_cons_of_isAttributeName h
    exact not_startsDirective_of_ne s (ne_of_class (hs c List.mem_cons_self) (by decide))
  exact if_neg hnamed

theorem laidAttribute_named :
    laidAttribute { name, value, quote } = { name, value := value.map laidValue, quote } := by
  rw [laidAttribute, formatAttribute_named h, Option.map_map]
  rfl

end Format

section Directive

variable {kind : TokenKind} {d : Text} (h : CleanDirective kind d)

include h

theorem formatAttribute_directive :
    formatAttribute { name := d } = { name := normalizeDirective d } := if_pos h.startsDirective

theorem laidAttribute_directive :
    laidAttribute { name := d } = { name := normalizeDirective d } := by
  rw [laidAttribute, formatAttribute_directive h]
  rfl

end Directive

/-- A laid out attribute is clean, and laid out already. -/
theorem CleanAttribute.laid (h : CleanAttribute a) :
    CleanAttribute (laidAttribute a) ∧ laidAttribute (laidAttribute a) = laidAttribute a := by
  cases h with
  | bare hn =>
    rw [laidAttribute_named hn, laidAttribute_named hn]
    exact ⟨.bare hn, rfl⟩
  | valued hn hq hv =>
    rw [laidAttribute_named hn, laidAttribute_named hn]
    refine ⟨.valued hn hq hv.laid.1, ?_⟩
    simp only [Option.map_some, hv.laidValue_laidValue]
  | directive hd =>
    obtain ⟨code, hlaid, hclean⟩ := hd.exists_laidDirective
    rw [laidAttribute_directive hd, hlaid, laidAttribute_directive hclean,
      normalizeDirective_laidDirective]
    exact ⟨.directive hclean, rfl⟩

theorem CleanAttribute.squeezes (h : CleanAttribute a) :
    Squeezes (formatAttribute a).render (laidAttribute a).render := by
  have hnamed {name : Text} (hn : isAttributeName name = true) :
      (∀ r, SolidHead (name ++ r)) ∧ SolidLast name ∧ '\n' ∉ name := by
    obtain ⟨c, s, rfl, hs⟩ := exists_cons_of_isAttributeName hn
    refine ⟨fun r ↦ ?_, fun d hd ↦ ?_, fun hmem ↦ ?_⟩
    · exact solidHead_cons _ (isBlank_of_isNameSymbol (hs c List.mem_cons_self))
    · exact isBlank_of_isNameSymbol (hs d (List.mem_of_getLast? hd))
    · cases hs _ hmem
  cases h with
  | bare hn =>
    obtain ⟨hhead, hlast, hbreak⟩ := hnamed hn
    rw [formatAttribute_named hn, laidAttribute_named hn]
    exact ⟨hhead, hlast, squeeze_eq_self hbreak⟩
  | @valued name v q hn hq hv =>
    obtain ⟨hhead, -, hbreak⟩ := hnamed hn
    have hquote : isBlank q = false := by
      rw [isQuote, Bool.or_eq_true, beq_iff_eq, beq_iff_eq] at hq
      rcases hq with rfl | rfl <;> rfl
    have hend : '\n' ∉ [q] := by
      rw [List.mem_singleton]
      rintro rfl
      cases hquote
    have hrender (u : Text) : TagAttribute.render { name, value := some u, quote := q } =
        name ++ "=" ++ [q] ++ (u ++ [q]) := by simp [TagAttribute.render]
    rw [formatAttribute_named hn, laidAttribute_named hn, Option.map_some, Option.map_some,
      hrender, hrender]
    refine ⟨?_, ?_, ?_⟩
    · intro r
      simp only [List.append_assoc]
      exact hhead _
    · rw [← List.append_assoc]
      exact solidLast_concat _ hquote
    · have hvalue : squeeze (respell v ++ [q]) = laidValue v ++ [q] := by
        rw [respaces_squeeze.append_solidHead _ (solidHead_cons _ hquote), squeeze_eq_self hend]
        rfl
      have hbefore : '\n' ∉ name ++ "=" ++ [q] := by
        simp only [List.mem_append, not_or]
        exact ⟨⟨hbreak, by decide⟩, hend⟩
      rw [respaces_squeeze.append_solidLast _ (solidLast_concat _ hquote), hvalue,
        squeeze_eq_self hbefore]
  | directive hd =>
    obtain ⟨code, hlaid, -⟩ := hd.exists_laidDirective
    rw [formatAttribute_directive hd, laidAttribute_directive hd, hlaid]
    exact squeezes_laidDirective _ code

end Attribute

section Tag

variable {tag : Tag}

def laidTag (tag : Tag) : Tag := { tag with attributes := tag.attributes.map laidAttribute }

theorem squeeze_spacedAttributes {attributes : List TagAttribute}
    (h : ∀ a ∈ attributes, CleanAttribute a) (closed : Bool) :
    squeeze (spacedAttributes (attributes.map formatAttribute) ++ slashIf closed) =
      spacedAttributes (attributes.map laidAttribute) ++ slashIf closed := by
  induction attributes with
  | nil => cases closed <;> rfl
  | cons a attributes ih =>
    rw [List.forall_mem_cons] at h
    have hsqueeze := h.1.squeezes
    have hspace (t : Text) (ht : SolidHead t) : squeeze (' ' :: t) = ' ' :: squeeze t := by
      rw [squeeze, takeWhile_of_solidHead (fun _ hc ↦ hc) ht]
      rfl
    rw [List.map_cons, List.map_cons, spacedAttributes_cons, spacedAttributes_cons,
      hspace _ (hsqueeze.head _), hsqueeze.append, ih h.2]

/-- The text of a tag is laid out as the tag with its attributes laid out. -/
theorem OpenTagText.squeezes_formatTag {t : Text} (h : OpenTagText tag t) :
    Squeezes (formatTag t) (laidTag tag).render := by
  have hparse := h.parseTag_eq
  obtain ⟨hname, hopening, -, hlayout⟩ := h
  have hrender (as : List TagAttribute) : { tag with attributes := as }.render =
      "<" ++ tag.name ++ (spacedAttributes as ++ slashIf tag.selfClosing) ++ ">" :=
    Tag.render_eq hopening
  have hblank : ∀ c ∈ tag.name, isBlank c = false := fun c hc ↦ (ne_end_of_isTagName hname hc).1
  have hlast : SolidLast ("<" ++ tag.name) := by
    refine SolidLast.append (solidLast_concat [] (by decide)) fun c hc ↦ ?_
    exact hblank c (List.mem_of_getLast? hc)
  have hbreak : '\n' ∉ "<" ++ tag.name := by
    rw [List.mem_append, not_or]
    refine ⟨by decide, fun hmem ↦ ?_⟩
    cases hblank _ hmem
  have hend : SolidHead ">" := solidHead_cons [] (by decide)
  rw [formatTag, hparse, hrender, laidTag, hrender]
  refine ⟨fun _ ↦ solidHead_cons _ (by decide), solidLast_concat _ (by decide), ?_⟩
  rw [respaces_squeeze.append_solidHead _ hend, respaces_squeeze.append_solidLast _ hlast,
    squeeze_eq_self hbreak, squeeze_spacedAttributes hlayout.cleanAttribute]
  rfl

theorem OpenTagText.laid {t : Text} (h : OpenTagText tag t) :
    OpenTagText (laidTag tag) (laidTag tag).render ∧ laidTag (laidTag tag) = laidTag tag := by
  obtain ⟨hname, hopening, -, hlayout⟩ := h
  have hclean := hlayout.cleanAttribute
  refine ⟨openTagText_render hname hopening ?_, ?_⟩
  · intro a ha
    obtain ⟨b, hb, rfl⟩ := List.mem_map.1 ha
    exact (hclean b hb).laid.1
  · simp only [laidTag, List.map_map, Tag.mk.injEq, true_and, and_true]
    exact List.map_congr_left fun a ha ↦ (hclean a ha).laid.2

end Tag

end ViewForge.Erb
