import ViewForge.Proofs.Erb.Nesting

namespace ViewForge.Erb

open Text

def isAttributeName (name : Text) : Bool := !name.isEmpty && name.all isNameSymbol

def EndsName (r : Text) : Prop := ∀ c ∈ r.head?, isBlank c = true ∨ c = '/'

/-- The attributes of an opening tag, whether it is self-closing, and what stands between its name
and its `>`. Attributes are bare names, names with a quoted value and whole directives. -/
inductive TagLayout : List TagAttribute → Bool → Text → Prop
  | nil : TagLayout [] false []
  | slash : TagLayout [] true ['/']
  | blank {attributes : List TagAttribute} {closed : Bool} {c : Char} {r : Text} :
      isBlank c = true → TagLayout attributes closed r → TagLayout attributes closed (c :: r)
  | bare {attributes : List TagAttribute} {closed : Bool} {name r : Text} :
      isAttributeName name = true → EndsName r → TagLayout attributes closed r →
      TagLayout ({ name } :: attributes) closed (name ++ r)
  | valued {attributes : List TagAttribute} {closed : Bool} (name before after : Text)
      {v r : Text} {q : Char} : isAttributeName name = true → before.all isBlank = true →
      after.all isBlank = true → isQuote q = true → CleanValue q v →
      TagLayout attributes closed r →
      TagLayout ({ name, value := some v, quote := q } :: attributes) closed
        (name ++ before ++ "=" ++ after ++ q :: v ++ q :: r)
  | directive {attributes : List TagAttribute} {closed : Bool} {kind : TokenKind} {d r : Text} :
      CleanDirective kind d → TagLayout attributes closed r →
      TagLayout ({ name := d } :: attributes) closed (d ++ r)

inductive OpenTagText (tag : Tag) : Text → Prop
  | mk {inner : Text} : isTagName tag.name = true → tag.closing = false → EndsName inner →
      TagLayout tag.attributes tag.selfClosing inner →
      OpenTagText tag ("<" ++ tag.name ++ inner ++ ">")

theorem OpenTagText.isTagName {tag : Tag} {t : Text} (h : OpenTagText tag t) :
    isTagName tag.name = true := by
  obtain ⟨hname, -⟩ := h
  exact hname

theorem OpenTagText.closing_eq {tag : Tag} {t : Text} (h : OpenTagText tag t) :
    tag.closing = false := by
  obtain ⟨-, hopening, -, -⟩ := h
  exact hopening

theorem OpenTagText.lt_mem {tag : Tag} {t : Text} (h : OpenTagText tag t) : '<' ∈ t := by
  obtain ⟨-, -, -, -⟩ := h
  exact List.mem_cons_self

theorem TagLayout.cleanTagBody {attributes : List TagAttribute} {closed : Bool} {inner : Text}
    (h : TagLayout attributes closed inner) : CleanTagBody (inner ++ ">") := by
  induction h with
  | nil => exact .close
  | slash => exact .selfClose
  | blank hc _ ih => exact .blank _ hc ih
  | bare hn _ _ ih =>
    rw [isAttributeName, Bool.and_eq_true] at hn
    rw [List.append_assoc]
    exact .bare _ hn.2 ih
  | @valued _ _ name before after v r q hn hb ha hq hv _ ih =>
    rw [isAttributeName, Bool.and_eq_true] at hn
    have hbody := CleanTagBody.valued name before after q hn.2 hb ha hq hv ih
    simpa only [List.append_assoc, List.cons_append] using hbody
  | directive hd _ ih =>
    rw [List.append_assoc]
    exact .directive hd ih

theorem OpenTagText.clean {tag : Tag} {t : Text} (h : OpenTagText tag t) :
    Token.Clean ⟨.openTag, t⟩ := by
  obtain ⟨hname, -, -, hlayout⟩ := h
  rw [List.append_assoc]
  exact .openTag tag.name hname hlayout.cleanTagBody

theorem not_close_cons {c : Char} {body : Text} (hc : c ≠ '%') (h : ¬("%>" : Text) <:+: body) :
    ¬("%>" : Text) <:+: c :: body := by
  intro hin
  rcases List.infix_cons_iff.1 hin with ⟨s, hs⟩ | hin
  · exact hc (List.cons.inj hs).1.symm
  · exact h hin

theorem CleanDirective.exists_eq_append {kind : TokenKind} {d : Text} (h : CleanDirective kind d) :
    ∃ body : Text, d = "<%" ++ body ++ "%>" ∧ ¬("%>" : Text) <:+: body := by
  cases h with
  | code body hb _ _ => exact ⟨body, rfl, hb.no_close⟩
  | output body hb => exact ⟨'=' :: body, rfl, not_close_cons (by decide) hb.no_close⟩
  | comment body hb => exact ⟨'#' :: body, rfl, not_close_cons (by decide) hb⟩

theorem plainDirectiveLength_append {body : Text} (r : Text) (h : ¬("%>" : Text) <:+: body) :
    plainDirectiveLength ("<%" ++ body ++ "%>" ++ r) = ("<%" ++ body ++ "%>").length := by
  have hdrop : ("<%" ++ body ++ "%>" ++ r).drop 2 = body ++ ("%>" ++ r) := by
    rw [← List.append_assoc]
    rfl
  have hlen : lengthThrough "%>" (body ++ ("%>" ++ r)) = some (body.length + 2) :=
    lengthThrough_append_mark (p := ['%']) r (by decide) h
  rw [plainDirectiveLength, hdrop, hlen]
  simp only [List.length_append, String.reduceToList, List.length_cons, List.length_nil]
  omega

theorem startsDirective_append (body r : Text) :
    startsDirective ("<%" ++ body ++ "%>" ++ r) = true := rfl

theorem quotedLength_length_append (q : Char) (s r : Text) :
    quotedLength q s.length (s ++ r) = s.length + quotedLength q 0 r := by
  induction s with
  | nil => rw [List.length_nil, List.nil_append, Nat.zero_add]
  | cons c s ih =>
    rw [List.length_cons, List.cons_append, quotedLength, ih]
    omega

theorem not_startsDirective_append_cons {c d : Char} {s : Text} (r : Text) (hd : d ≠ '%')
    (h : ¬startsDirective (c :: s) = true) : ¬startsDirective (c :: (s ++ d :: r)) = true := by
  intro hstart
  cases s with
  | nil =>
    obtain ⟨u, hu⟩ := startsWith_iff.1 hstart
    exact hd (List.cons.inj (List.cons.inj hu).2).1.symm
  | cons e s => exact h (startsWith_of_append (t := c :: e :: s) hstart (by simp))

theorem CleanValue.append_cons {q d : Char} {v r : Text} (hv : CleanValue q v) (hd : d ≠ '%')
    (hr : CleanValue q (d :: r)) : CleanValue q (v ++ d :: r) := by
  induction hv with
  | nil => exact hr
  | char hc hs _ ih => exact .char hc (not_startsDirective_append_cons r hd hs) ih
  | directive hdir _ ih =>
    rw [List.append_assoc]
    exact .directive hdir ih

/-- A value that goes on to the next quote `q`: all others stand in its directives, which need
not hold code that closes its strings. -/
inductive Enclosed (q : Char) : Text → Prop
  | nil : Enclosed q []
  | char {c : Char} {r : Text} : c ≠ q → ¬startsDirective (c :: r) = true → Enclosed q r →
      Enclosed q (c :: r)
  | directive {body r : Text} : ¬("%>" : Text) <:+: body → Enclosed q r →
      Enclosed q ("<%" ++ body ++ "%>" ++ r)

theorem CleanValue.enclosed {q : Char} {v : Text} (h : CleanValue q v) : Enclosed q v := by
  induction h with
  | nil => exact .nil
  | char hc hd _ ih => exact .char hc hd ih
  | directive hd _ ih =>
    obtain ⟨body, rfl, hbody⟩ := hd.exists_eq_append
    exact .directive hbody ih

theorem quotedLength_value {q : Char} {v : Text} (r : Text) (hq : isQuote q = true)
    (h : Enclosed q v) : quotedLength q 0 (v ++ q :: r) = v.length := by
  induction h with
  | nil =>
    have hd := not_startsDirective_of_ne r (ne_of_class hq (by decide : isQuote '<' = false))
    simp only [List.nil_append, quotedLength, if_neg hd, beq_self_eq_true, if_true, List.length_nil]
  | @char c s hc hd hs ih =>
    have hout := not_startsDirective_append_cons r
      (ne_of_class hq (by decide : isQuote '%' = false)) hd
    simp only [List.cons_append, quotedLength, if_neg hout, beq_iff_eq, if_neg hc, ih,
      List.length_cons]
  | @directive body s hbody hs ih =>
    have hlen := plainDirectiveLength_append (s ++ q :: r) hbody
    have hstart := startsDirective_append body (s ++ q :: r)
    have hne : ("<%" ++ body ++ "%>" : Text) ≠ [] := nofun
    generalize ("<%" ++ body ++ "%>" : Text) = d at hlen hstart hne ⊢
    obtain ⟨c, d, rfl⟩ := List.exists_cons_of_ne_nil hne
    rw [List.cons_append] at hlen hstart
    rw [List.append_assoc, List.length_append, List.cons_append, quotedLength, if_pos hstart, hlen,
      List.length_cons, Nat.add_sub_cancel, quotedLength_length_append, ih]
    omega

section Pieces

variable {name r : Text}

theorem tagPiecesFrom_length_append (s r : Text) :
    tagPiecesFrom s.length (s ++ r) = tagPiecesFrom 0 r := by
  induction s with
  | nil => rfl
  | cons c s ih =>
    have hskip : tagPiecesFrom (s.length + 1) (c :: (s ++ r)) =
        tagPiecesFrom s.length (s ++ r) := rfl
    rw [List.length_cons, List.cons_append, hskip, ih]

theorem tagPiecesFrom_append {p : Text} {piece : TagPiece} (hp : p ≠ [])
    (h : tagPiece (p ++ r) = (piece, p.length)) :
    tagPiecesFrom 0 (p ++ r) = piece :: tagPiecesFrom 0 r := by
  obtain ⟨c, p, rfl⟩ := List.exists_cons_of_ne_nil hp
  rw [List.cons_append] at h ⊢
  have hfirst : tagPiecesFrom 0 (c :: (p ++ r)) = (tagPiece (c :: (p ++ r))).1 ::
      tagPiecesFrom ((tagPiece (c :: (p ++ r))).2 - 1) (p ++ r) := rfl
  rw [hfirst, h, List.length_cons, Nat.add_sub_cancel, tagPiecesFrom_length_append]

theorem exists_cons_of_isAttributeName (h : isAttributeName name = true) :
    ∃ c s, name = c :: s ∧ ∀ d ∈ c :: s, isNameSymbol d = true := by
  rw [isAttributeName, Bool.and_eq_true] at h
  cases name with
  | nil => cases h.1
  | cons c s => exact ⟨c, s, rfl, List.all_eq_true.1 h.2⟩

theorem isAttributeNamePart_of_isNameSymbol {c : Char} (h : isNameSymbol c = true) :
    isAttributeNamePart c = true := by
  simp only [isNameSymbol, Bool.and_eq_true] at h
  exact h.1.1

theorem isBlank_of_isNameSymbol {c : Char} (h : isNameSymbol c = true) : isBlank c = false := by
  have hpart := isAttributeNamePart_of_isNameSymbol h
  simp only [isAttributeNamePart, Bool.not_eq_true', Bool.or_eq_false_iff] at hpart
  exact hpart.1.1.1

/-- A name that an attribute is read with: it need not be one that a template can be cut at. -/
structure AttributeWord (name : Text) : Prop where
  ne_nil : name ≠ []
  isPart : ∀ c ∈ name, isAttributeNamePart c = true
  named : ¬startsDirective name = true

theorem attributeWord_of_isAttributeName (h : isAttributeName name = true) :
    AttributeWord name := by
  obtain ⟨c, s, rfl, hs⟩ := exists_cons_of_isAttributeName h
  exact ⟨List.cons_ne_nil _ _, fun d hd ↦ isAttributeNamePart_of_isNameSymbol (hs d hd),
    not_startsDirective_of_ne s (ne_of_class (hs c List.mem_cons_self) (by decide))⟩

/-- What stands after the name of an attribute cannot be taken for more of it. -/
def EndsWord (r : Text) : Prop := ∀ c ∈ r.head?, isAttributeNamePart c = false

theorem EndsName.endsWord (h : EndsName r) : EndsWord r := by
  intro c hc
  rcases h c hc with hblank | rfl
  · simp [isAttributeNamePart, hblank]
  · decide

theorem tagPiece_word (h : AttributeWord name) (hr : EndsWord r) :
    tagPiece (name ++ r) = attributePiece (name ++ r) := by
  obtain ⟨hne, hpart, hnamed⟩ := h
  obtain ⟨c, s, rfl⟩ := List.exists_cons_of_ne_nil hne
  have hc := hpart c List.mem_cons_self
  have hd : ¬startsDirective (c :: (s ++ r)) = true := by
    cases r with
    | nil => rwa [List.append_nil]
    | cons d r =>
      refine not_startsDirective_append_cons r ?_ hnamed
      rintro rfl
      exact absurd (hr '%' rfl) (by decide)
  have hclass := hc
  simp only [isAttributeNamePart, Bool.not_eq_true', Bool.or_eq_false_iff] at hclass
  rw [List.cons_append]
  simp only [tagPiece, hclass.1.1.1, hclass.1.2, if_neg hd, hc, Bool.false_eq_true, if_false,
    if_true]

theorem takeWhile_word (h : AttributeWord name) (hr : EndsWord r) :
    (name ++ r).takeWhile isAttributeNamePart = name := by
  have hrest : r.takeWhile isAttributeNamePart = [] := by
    cases r with
    | nil => rfl
    | cons d r => exact List.takeWhile_cons_of_neg (by simp [hr d rfl])
  rw [List.takeWhile_append_of_pos h.isPart, hrest, List.append_nil]

theorem tagPiece_bare (h : AttributeWord name) (hr : EndsWord r)
    (hequals : (r.dropWhile isBlank).head? ≠ some '=') :
    tagPiece (name ++ r) = (.attribute { name }, name.length) := by
  rw [tagPiece_word h hr, attributePiece]
  simp only [takeWhile_word h hr, List.drop_left]
  split
  next heq => exact absurd (by rw [heq]; rfl) hequals
  next => rfl

theorem tagPiece_valued {before after v : Text} {q : Char} (r : Text) (h : AttributeWord name)
    (hb : before.all isBlank = true) (ha : after.all isBlank = true) (hq : isQuote q = true)
    (hv : Enclosed q v) :
    tagPiece (name ++ before ++ "=" ++ after ++ q :: v ++ [q] ++ r) =
      (.attribute { name, value := some v, quote := q },
        (name ++ before ++ "=" ++ after ++ q :: v ++ [q]).length) := by
  have hshape : name ++ before ++ "=" ++ after ++ q :: v ++ [q] ++ r =
      name ++ (before ++ '=' :: (after ++ q :: (v ++ q :: r))) := by simp
  have hends : EndsWord (before ++ '=' :: (after ++ q :: (v ++ q :: r))) := by
    intro c hc
    cases before with
    | nil =>
      cases hc
      decide
    | cons d before =>
      cases hc
      rw [List.all_cons, Bool.and_eq_true] at hb
      simp [isAttributeNamePart, hb.1]
  have hbefore : (before ++ '=' :: (after ++ q :: (v ++ q :: r))).dropWhile isBlank =
      '=' :: (after ++ q :: (v ++ q :: r)) := by
    rw [List.dropWhile_append_of_pos (List.all_eq_true.1 hb)]
    rfl
  have hafter : (after ++ q :: (v ++ q :: r)).dropWhile isBlank = q :: (v ++ q :: r) := by
    have hquote : ¬isBlank q = true := by
      rw [isQuote, Bool.or_eq_true, beq_iff_eq, beq_iff_eq] at hq
      rcases hq with rfl | rfl <;> decide
    rw [List.dropWhile_append_of_pos (List.all_eq_true.1 ha), List.dropWhile_cons_of_neg hquote]
  rw [hshape, tagPiece_word h hends, attributePiece]
  simp only [takeWhile_word h hends, List.drop_left, hbefore, hafter, if_pos hq,
    quotedLength_value r hq hv, List.take_left, Prod.mk.injEq, true_and]
  simp only [List.length_append, List.length_cons, List.length_nil, String.reduceToList]
  omega

theorem tagPiece_directive {body : Text} (r : Text) (h : ¬("%>" : Text) <:+: body) :
    tagPiece ("<%" ++ body ++ "%>" ++ r) =
      (.attribute { name := "<%" ++ body ++ "%>" }, ("<%" ++ body ++ "%>").length) := by
  have hlen := plainDirectiveLength_append r h
  have htake : ("<%" ++ body ++ "%>" ++ r).take ("<%" ++ body ++ "%>").length =
      "<%" ++ body ++ "%>" := List.take_left
  change (TagPiece.attribute { name := List.take _ _ }, _) = _
  rw [hlen, htake]

def ReadsAs (attributes : List TagAttribute) (closed : Bool) (inner : Text) : Prop :=
  (tagPiecesFrom 0 inner).filterMap TagPiece.attribute? = attributes ∧
    (tagPiecesFrom 0 inner).foldl TagPiece.closes false = closed

theorem ReadsAs.blank {attributes : List TagAttribute} {closed : Bool} {c : Char}
    (hc : isBlank c = true) (h : ReadsAs attributes closed r) :
    ReadsAs attributes closed (c :: r) := by
  have hpiece : tagPiece ([c] ++ r) = (.gap, [c].length) := by simp [tagPiece, hc]
  rw [ReadsAs, ← List.singleton_append, tagPiecesFrom_append (List.cons_ne_nil _ _) hpiece]
  exact h

theorem ReadsAs.attribute {attributes : List TagAttribute} {closed : Bool} {a : TagAttribute}
    {p : Text} (hp : p ≠ []) (hpiece : tagPiece (p ++ r) = (.attribute a, p.length))
    (h : ReadsAs attributes closed r) : ReadsAs (a :: attributes) closed (p ++ r) := by
  rw [ReadsAs, tagPiecesFrom_append hp hpiece, List.filterMap_cons, List.foldl_cons]
  exact ⟨congrArg _ h.1, by rw [TagPiece.closes, Bool.and_false, h.2]⟩

theorem TagLayout.head?_ne_equals {attributes : List TagAttribute} {closed : Bool} {inner : Text}
    (h : TagLayout attributes closed inner) : (inner.dropWhile isBlank).head? ≠ some '=' := by
  have hname (n s : Text) (hn : isAttributeName n = true) :
      ((n ++ s).dropWhile isBlank).head? ≠ some '=' := by
    obtain ⟨c, n, rfl, hs⟩ := exists_cons_of_isAttributeName hn
    have hc := hs c List.mem_cons_self
    rw [List.cons_append, List.dropWhile_cons_of_neg (by simp [isBlank_of_isNameSymbol hc])]
    exact fun heq ↦ ne_of_class hc (by decide : isNameSymbol '=' = false) (Option.some.inj heq)
  induction h with
  | nil => exact nofun
  | slash => decide
  | blank hc _ ih => rwa [List.dropWhile_cons_of_pos hc]
  | bare hn _ _ _ => exact hname _ _ hn
  | valued _ _ _ hn _ _ _ _ _ _ =>
    simp only [List.append_assoc]
    exact hname _ _ hn
  | directive hd _ _ =>
    obtain ⟨u, hu⟩ := startsWith_iff.1 hd.startsDirective
    rw [← hu]
    exact nofun

/-- Reading what stands in a tag gives its attributes, and tells whether it is self-closing. -/
theorem TagLayout.readsAs {attributes : List TagAttribute} {closed : Bool} {inner : Text}
    (h : TagLayout attributes closed inner) : ReadsAs attributes closed inner := by
  induction h with
  | nil => exact ⟨rfl, rfl⟩
  | slash => exact ⟨rfl, rfl⟩
  | blank hc _ ih => exact ih.blank hc
  | bare hn hr hl ih =>
    have hword := attributeWord_of_isAttributeName hn
    exact ih.attribute hword.ne_nil (tagPiece_bare hword hr.endsWord hl.head?_ne_equals)
  | @valued _ _ name before after v r q hn hb ha hq hv _ ih =>
    have hshape : name ++ before ++ "=" ++ after ++ q :: v ++ q :: r =
        name ++ before ++ "=" ++ after ++ q :: v ++ [q] ++ r := by simp
    have hword := attributeWord_of_isAttributeName hn
    rw [hshape]
    exact ih.attribute (by simp) (tagPiece_valued r hword hb ha hq hv.enclosed)
  | directive hd _ ih =>
    obtain ⟨body, rfl, hbody⟩ := hd.exists_eq_append
    exact ih.attribute nofun (tagPiece_directive _ hbody)

end Pieces

def isTagNamePart (c : Char) : Bool := !(isBlank c || c == '/' || c == '>')

/-- A tag is read from its name and from what stands after it. -/
theorem ReadsAs.parseTag_eq {name inner : Text} {attributes : List TagAttribute} {closed : Bool}
    (h : ReadsAs attributes closed inner) (hne : name ≠ [])
    (hname : name.all isTagNamePart = true) (hends : EndsName inner) :
    parseTag ("<" ++ name ++ inner ++ ">") = { name, attributes, selfClosing := closed } := by
  have hopen : ¬startsWith ("<" ++ name ++ inner ++ ">") "</" = true := by
    obtain ⟨c, s, rfl⟩ := List.exists_cons_of_ne_nil hne
    rw [List.all_cons, Bool.and_eq_true] at hname
    have hslash : ('/' == c) = false := beq_of_class hname.1 (by decide)
    change ¬('<' == '<' && ('/' == c && true)) = true
    rw [hslash]
    decide
  have hend : endsWith ("<" ++ name ++ inner ++ ">") ">" = true :=
    endsWith_iff.2 (List.suffix_append _ _)
  have hbody : (("<" ++ name ++ inner ++ ">" : Text).drop 1).dropLast = name ++ inner :=
    List.dropLast_concat
  have hrest : inner.takeWhile isTagNamePart = [] := by
    cases inner with
    | nil => rfl
    | cons c inner =>
      refine List.takeWhile_cons_of_neg ?_
      rcases hends c rfl with hblank | rfl
      · simp [isTagNamePart, hblank]
      · decide
  have htake : (name ++ inner).takeWhile (fun c ↦ !(isBlank c || c == '/' || c == '>')) = name := by
    change (name ++ inner).takeWhile isTagNamePart = name
    rw [List.takeWhile_append_of_pos (List.all_eq_true.1 hname), hrest, List.append_nil]
  obtain ⟨rfl, rfl⟩ := h
  rw [parseTag, if_neg hopen, if_pos hend, hbody]
  simp only [htake, List.drop_left]

/-- The text of a tag is read as that tag. -/
theorem OpenTagText.parseTag_eq {tag : Tag} {t : Text} (h : OpenTagText tag t) :
    parseTag t = tag := by
  obtain ⟨hname, hopening, hends, hlayout⟩ := h
  have hne : tag.name ≠ [] := by
    obtain ⟨c, s, heq, -, -⟩ := exists_letter_of_isTagName hname
    rw [heq]
    exact List.cons_ne_nil c s
  have hpart : tag.name.all isTagNamePart = true := by
    refine List.all_eq_true.2 fun c hc ↦ ?_
    obtain ⟨hblank, hslash, hgt⟩ := ne_end_of_isTagName hname hc
    rw [isTagNamePart, hblank, hslash, hgt]
    rfl
  rw [hlayout.readsAs.parseTag_eq hne hpart hends]
  obtain ⟨name, attributes, selfClosing, closing⟩ := tag
  cases hopening
  rfl

/-- An attribute that reads back as it is written. -/
inductive CleanAttribute : TagAttribute → Prop
  | bare {name : Text} : isAttributeName name = true → CleanAttribute { name }
  | valued {name v : Text} {q : Char} : isAttributeName name = true → isQuote q = true →
      CleanValue q v → CleanAttribute { name, value := some v, quote := q }
  | directive {kind : TokenKind} {d : Text} : CleanDirective kind d →
      CleanAttribute { name := d }

theorem TagLayout.cleanAttribute {attributes : List TagAttribute} {closed : Bool} {inner : Text}
    (h : TagLayout attributes closed inner) : ∀ a ∈ attributes, CleanAttribute a := by
  induction h with
  | nil => exact nofun
  | slash => exact nofun
  | blank _ _ ih => exact ih
  | bare hn _ _ ih => exact List.forall_mem_cons.2 ⟨.bare hn, ih⟩
  | valued _ _ _ hn _ _ hq hv _ ih => exact List.forall_mem_cons.2 ⟨.valued hn hq hv, ih⟩
  | directive hd _ ih => exact List.forall_mem_cons.2 ⟨.directive hd, ih⟩

section Render

variable {tag : Tag} {attributes : List TagAttribute}

def spacedAttributes (attributes : List TagAttribute) : Text :=
  attributes.flatMap fun a ↦ ' ' :: a.render

def slashIf (closed : Bool) : Text := if closed then " /" else []

theorem Tag.render_eq (h : tag.closing = false) :
    tag.render =
      "<" ++ tag.name ++ (spacedAttributes tag.attributes ++ slashIf tag.selfClosing) ++ ">" := by
  have hjoin (t : Text) (as : List TagAttribute) :
      join " " (t :: as.map TagAttribute.render) = t ++ spacedAttributes as := by
    induction as generalizing t with
    | nil => simp [join, spacedAttributes]
    | cons a as ih =>
      have hstep : join " " (t :: a.render :: as.map TagAttribute.render) =
          t ++ ' ' :: join " " (a.render :: as.map TagAttribute.render) := by
        simp [join, List.intercalate]
      rw [List.map_cons, hstep, ih]
      rfl
  rw [Tag.render, h, hjoin, slashIf]
  cases tag.selfClosing <;> simp

theorem spacedAttributes_cons (a : TagAttribute) (attributes : List TagAttribute) (r : Text) :
    spacedAttributes (a :: attributes) ++ r =
      ' ' :: (a.render ++ (spacedAttributes attributes ++ r)) := by
  simp [spacedAttributes]

theorem endsName_spaced (attributes : List TagAttribute) (closed : Bool) :
    EndsName (spacedAttributes attributes ++ slashIf closed) := by
  have hspace (t : Text) : EndsName (' ' :: t) := by
    rintro _ ⟨⟩
    exact .inl (by decide)
  cases attributes with
  | nil =>
    cases closed with
    | false => exact nofun
    | true => exact hspace _
  | cons a attributes =>
    rw [spacedAttributes_cons]
    exact hspace _

theorem tagLayout_spaced (h : ∀ a ∈ attributes, CleanAttribute a) (closed : Bool) :
    TagLayout attributes closed (spacedAttributes attributes ++ slashIf closed) := by
  induction attributes with
  | nil =>
    cases closed with
    | false => exact .nil
    | true => exact .blank (by decide) .slash
  | cons a attributes ih =>
    rw [List.forall_mem_cons] at h
    have hlayout := ih h.2
    rw [spacedAttributes_cons]
    refine .blank (by decide) ?_
    cases h.1 with
    | bare hn => exact .bare hn (endsName_spaced attributes closed) hlayout
    | @valued name v q hn hq hv =>
      have hvalued := TagLayout.valued name [] [] hn rfl rfl hq hv hlayout
      simpa [TagAttribute.render] using hvalued
    | directive hd => exact .directive hd hlayout

theorem openTagText_render (hname : isTagName tag.name = true) (hopening : tag.closing = false)
    (h : ∀ a ∈ tag.attributes, CleanAttribute a) : OpenTagText tag tag.render := by
  rw [Tag.render_eq hopening]
  exact .mk hname hopening (endsName_spaced _ _) (tagLayout_spaced h _)

end Render

end ViewForge.Erb
