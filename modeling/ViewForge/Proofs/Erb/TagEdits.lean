import ViewForge.Proofs.Erb.AttributeLayout
import ViewForge.Proofs.Text.Splitting

namespace ViewForge.Erb

open Text

def Chunk.IfPlain (P : Text → Prop) : Chunk → Prop
  | .plain u => P u
  | .directive _ => True

instance (P : Text → Prop) [DecidablePred P] : DecidablePred (Chunk.IfPlain P)
  | .plain u => inferInstanceAs (Decidable (P u))
  | .directive _ => inferInstanceAs (Decidable True)

/-- What holds of each stretch of a text between the directives that the text closes. -/
def OutsideDirectives (P : Text → Prop) (t : Text) : Prop := ∀ chunk ∈ chunks t, chunk.IfPlain P

instance (P : Text → Prop) [DecidablePred P] : DecidablePred (OutsideDirectives P) :=
  fun t ↦ inferInstanceAs (Decidable (∀ chunk ∈ chunks t, chunk.IfPlain P))

def QuotesEnclosed (q : Char) (v : Text) : Prop := OutsideDirectives (q ∉ ·) v

instance (q : Char) : DecidablePred (QuotesEnclosed q) :=
  inferInstanceAs (DecidablePred (OutsideDirectives _))

def DirectivesClosed (v : Text) : Prop := OutsideDirectives (¬("<%" : Text) <:+: ·) v

instance : DecidablePred DirectivesClosed := inferInstanceAs (DecidablePred (OutsideDirectives _))

inductive TagAttribute.Canonical : TagAttribute → Prop
  | bare {name : Text} : AttributeWord name → Canonical { name }
  | valued {name v : Text} {q : Char} : AttributeWord name → isQuote q = true →
      QuotesEnclosed q v → Canonical { name, value := some v, quote := q }
  | directive {body : Text} : ¬("%>" : Text) <:+: body →
      Canonical { name := "<%" ++ body ++ "%>" }

def TagAttribute.Closed (a : TagAttribute) : Prop := ∀ v ∈ a.value, DirectivesClosed v

structure Tag.Canonical (tag : Tag) : Prop where
  name_ne_nil : tag.name ≠ []
  isPart : tag.name.all isTagNamePart = true
  opening : tag.closing = false
  attributes : ∀ a ∈ tag.attributes, a.Canonical

def Tag.Closed (tag : Tag) : Prop := ∀ a ∈ tag.attributes, a.Closed

section Chunks

variable {c : Char} {cs : List Chunk} {q : Char} {v : Text}

theorem exists_first_occurrence {pat t : Text} (hpat : pat ≠ []) (h : pat <:+: t) :
    ∃ a b : Text, t = a ++ pat ++ b ∧ ¬pat <:+: a := by
  obtain ⟨⟨a, b⟩, hbreak⟩ := Option.isSome_iff_exists.1 ((occursIn_iff hpat).2 h)
  exact ⟨a, b, breakOn_eq_some hbreak, not_infix_of_breakOn hpat hbreak⟩

theorem exists_consPlain (c : Char) (cs : List Chunk) :
    ∃ u rest, consPlain c cs = .plain (c :: u) :: rest := by
  unfold consPlain
  split
  · exact ⟨_, _, rfl⟩
  · exact ⟨[], _, rfl⟩

theorem mem_consPlain {u : Text} (h : Chunk.plain u ∈ cs) :
    Chunk.plain u ∈ consPlain c cs ∨ Chunk.plain (c :: u) ∈ consPlain c cs := by
  unfold consPlain
  split
  · rcases List.mem_cons.1 h with heq | h
    · cases heq
      exact .inr List.mem_cons_self
    · exact .inl (List.mem_cons_of_mem _ h)
  · exact .inl (List.mem_cons_of_mem _ h)

theorem chunks_unclosed {t : Text} (h : ¬("%>" : Text) <:+: t) :
    chunks ('<' :: '%' :: t) = consPlain '<' (chunks ('%' :: t)) := by
  have hbreak : breakOn "%>" t = none := by
    rw [breakOn_eq_map percentClose_ne_nil, (lengthThrough_eq_none_iff percentClose_ne_nil).2 h]
    rfl
  rw [chunks, chunksFrom, if_pos (by rfl), List.drop_one, List.tail_cons, hbreak]
  rfl

variable {P : Text → Prop} {r : Text}

theorem OutsideDirectives.of_directive {body : Text} (hbody : ¬("%>" : Text) <:+: body)
    (h : OutsideDirectives P ("<%" ++ body ++ "%>" ++ r)) : OutsideDirectives P r := by
  intro chunk hchunk
  apply h chunk
  rw [chunks_directive r hbody]
  exact List.mem_cons_of_mem _ hchunk

theorem OutsideDirectives.of_cons (hP : ∀ c u, P (c :: u) → P u)
    (hd : ¬startsDirective (c :: r) = true) (h : OutsideDirectives P (c :: r)) :
    OutsideDirectives P r := by
  rintro (u | body) hchunk
  · rw [OutsideDirectives, chunks_cons hd] at h
    rcases mem_consPlain hchunk with hmem | hmem
    · exact h _ hmem
    · exact hP c u (h _ hmem)
  · trivial

theorem QuotesEnclosed.ne_of_cons (hd : ¬startsDirective (c :: r) = true)
    (h : QuotesEnclosed q (c :: r)) : c ≠ q := by
  rintro rfl
  obtain ⟨u, rest, hcons⟩ := exists_consPlain c (chunks r)
  refine h (.plain (c :: u)) ?_ List.mem_cons_self
  rw [chunks_cons hd, hcons]
  exact List.mem_cons_self

/-- A directive that is never closed begins in a plain chunk. -/
theorem DirectivesClosed.exists_close (h : DirectivesClosed ('<' :: '%' :: r)) :
    ("%>" : Text) <:+: r := by
  by_contra hin
  obtain ⟨u, rest, hcons⟩ := exists_consPlain '%' (chunks r)
  have hmem : Chunk.plain ('<' :: '%' :: u) ∈ chunks ('<' :: '%' :: r) := by
    rw [chunks_unclosed hin, chunks_cons (not_startsDirective_of_ne r (by decide)), hcons]
    exact List.mem_cons_self
  exact h _ hmem ⟨[], u, rfl⟩

/-- The quote that ends a value is the first outside its directives. -/
theorem enclosed_of_chunks (hquotes : QuotesEnclosed q v) (hclosed : DirectivesClosed v) :
    Enclosed q v := by
  induction hlen : v.length using Nat.strong_induction_on generalizing v with
  | _ n ih =>
    subst hlen
    cases v with
    | nil => exact .nil
    | cons c r =>
      by_cases hstart : startsDirective (c :: r) = true
      · obtain ⟨rfl, t, rfl⟩ := startsDirective_cons_iff.1 hstart
        obtain ⟨body, rest, rfl, hbody⟩ :=
          exists_first_occurrence percentClose_ne_nil hclosed.exists_close
        refine .directive hbody (ih _ ?_ (hquotes.of_directive hbody)
          (hclosed.of_directive hbody) rfl)
        simp only [List.length_append, List.length_cons]
        omega
      · refine .char (hquotes.ne_of_cons hstart) hstart (ih _ (by simp) ?_ ?_ rfl)
        · exact hquotes.of_cons (fun _ _ h hmem ↦ h (List.mem_cons_of_mem _ hmem)) hstart
        · exact hclosed.of_cons
            (fun _ _ h hin ↦ h (hin.trans (List.suffix_cons _ _).isInfix)) hstart

end Chunks

section Reading

variable {a : TagAttribute} {attributes : List TagAttribute} {tag : Tag} {r : Text}

theorem TagAttribute.Canonical.exists_render_eq (h : a.Canonical) :
    ∃ c s, a.render = c :: s ∧ isAttributeNamePart c = true := by
  have hword {name : Text} (hw : AttributeWord name) (t : Text) :
      ∃ c s, name ++ t = c :: s ∧ isAttributeNamePart c = true := by
    obtain ⟨c, s, rfl⟩ := List.exists_cons_of_ne_nil hw.ne_nil
    exact ⟨c, s ++ t, rfl, hw.isPart c List.mem_cons_self⟩
  cases h with
  | @bare name hw => simpa [TagAttribute.render] using hword hw []
  | valued hw hq hv => simpa [TagAttribute.render] using hword hw _
  | directive hbody => exact ⟨'<', _, rfl, by decide⟩

theorem TagAttribute.Canonical.tagPiece_render (h : a.Canonical) (hclosed : a.Closed)
    (hr : EndsName r) (hequals : (r.dropWhile isBlank).head? ≠ some '=') :
    tagPiece (a.render ++ r) = (.attribute a, a.render.length) := by
  cases h with
  | bare hw => exact tagPiece_bare hw hr.endsWord hequals
  | @valued name v q hw hq hv =>
    have hnone : ([] : Text).all isBlank = true := rfl
    have hpiece := tagPiece_valued r hw hnone hnone hq
      (enclosed_of_chunks hv (hclosed v rfl))
    simpa [TagAttribute.render] using hpiece
  | directive hbody => exact tagPiece_directive r hbody

theorem head?_spaced_ne_equals (h : ∀ a ∈ attributes, a.Canonical) (closed : Bool) :
    ((spacedAttributes attributes ++ slashIf closed).dropWhile isBlank).head? ≠ some '=' := by
  cases attributes with
  | nil => cases closed <;> decide
  | cons a attributes =>
    obtain ⟨c, s, hrender, hc⟩ := (h a List.mem_cons_self).exists_render_eq
    simp only [isAttributeNamePart, Bool.not_eq_true', Bool.or_eq_false_iff] at hc
    rw [spacedAttributes_cons, hrender, List.dropWhile_cons_of_pos (by decide), List.cons_append,
      List.dropWhile_cons_of_neg (by simp [hc.1.1.1])]
    simpa using hc.1.1.2

theorem readsAs_spaced (h : ∀ a ∈ attributes, a.Canonical) (hclosed : ∀ a ∈ attributes, a.Closed)
    (closed : Bool) :
    ReadsAs attributes closed (spacedAttributes attributes ++ slashIf closed) := by
  induction attributes with
  | nil => cases closed <;> exact ⟨rfl, rfl⟩
  | cons a attributes ih =>
    rw [List.forall_mem_cons] at h hclosed
    obtain ⟨c, s, hrender, -⟩ := h.1.exists_render_eq
    rw [spacedAttributes_cons]
    refine ReadsAs.blank (by decide) ((ih h.2 hclosed.2).attribute (by simp [hrender]) ?_)
    exact h.1.tagPiece_render hclosed.1 (endsName_spaced attributes closed)
      (head?_spaced_ne_equals h.2 closed)

theorem Tag.Canonical.parseTag_render (h : tag.Canonical) (hclosed : tag.Closed) :
    parseTag tag.render = tag := by
  obtain ⟨name, attributes, selfClosing, closing⟩ := tag
  obtain ⟨hne, hpart, hopening, hattributes⟩ := h
  cases hopening
  rw [Tag.render_eq rfl]
  exact (readsAs_spaced hattributes hclosed selfClosing).parseTag_eq hne hpart
    (endsName_spaced attributes selfClosing)

end Reading

inductive TagEdit where
  | set (name : Text) (value : Option Text)
  | insert (index : Int) (name : Text) (value : Option Text)
  | erase (name : Text)

namespace TagEdit

/-- The place that an index has among `n` attributes. A negative one counts from the end. -/
def place (index : Int) (n : Nat) : Nat := (if index < 0 then index + n else index).toNat

def apply (tag : Tag) : TagEdit → Tag
  | set name value => tag.set name value
  | insert index name value => tag.insert (place index tag.attributes.length) name value
  | erase name => tag.erase name

def attribute? : TagEdit → Option TagAttribute
  | set name value => some { name, value }
  | insert _ name value => some { name, value }
  | erase _ => none

end TagEdit

def Tag.states (tag : Tag) : List TagEdit → List Tag
  | [] => [tag]
  | e :: edits => tag :: (e.apply tag).states edits

/-- What is left of the attributes when the first of that name is taken out. -/
inductive ErasesFirst (name : Text) : List TagAttribute → List TagAttribute → Prop
  | absent {attributes : List TagAttribute} : (∀ a ∈ attributes, a.name ≠ name) →
      ErasesFirst name attributes attributes
  | first {before after : List TagAttribute} {a : TagAttribute} :
      (∀ b ∈ before, b.name ≠ name) → a.name = name →
      ErasesFirst name (before ++ a :: after) (before ++ after)

section Edits

variable {tag : Tag} {name : Text} {value : Option Text}

theorem mem_assign {attributes : List TagAttribute} {a : TagAttribute}
    (h : a ∈ Tag.assign name value attributes) : a ∈ attributes ∨ a = { name, value } := by
  induction attributes with
  | nil => exact .inr (List.mem_singleton.1 h)
  | cons b r ih =>
    rw [Tag.assign] at h
    split at h
    next heq =>
      rcases List.mem_cons.1 h with rfl | h
      · exact .inr (by rw [beq_iff_eq.1 heq])
      · exact .inl (List.mem_cons_of_mem _ h)
    next =>
      rcases List.mem_cons.1 h with rfl | h
      · exact .inl List.mem_cons_self
      · exact (ih h).imp_left (List.mem_cons_of_mem _)

theorem find?_assign (attributes : List TagAttribute) :
    (Tag.assign name value attributes).find? (·.name == name) = some { name, value } := by
  induction attributes with
  | nil => simp [Tag.assign]
  | cons b r ih =>
    rw [Tag.assign]
    split
    next heq => simp [beq_iff_eq.1 heq]
    next hne => simp [hne, ih]

theorem erasesFirst_eraseP (attributes : List TagAttribute) :
    ErasesFirst name attributes (attributes.eraseP (·.name == name)) := by
  by_cases h : ∃ a ∈ attributes, (a.name == name) = true
  · obtain ⟨a, ha, hname⟩ := h
    obtain ⟨a, before, after, hbefore, hname, rfl, heq⟩ :=
      List.exists_of_eraseP (p := (·.name == name)) ha hname
    rw [heq]
    exact .first (fun b hb ↦ by simpa using hbefore b hb) (by simpa using hname)
  · push Not at h
    rw [List.eraseP_of_forall_not h]
    exact .absent fun a ha ↦ by simpa using h a ha

/-- An edit brings in no attribute but its own. -/
theorem mem_attributes_apply {e : TagEdit} {a : TagAttribute}
    (h : a ∈ (e.apply tag).attributes) : a ∈ tag.attributes ∨ a ∈ e.attribute? := by
  cases e with
  | set name value => exact (mem_assign h).imp_right fun heq ↦ congrArg some heq.symm
  | insert index name value =>
    rcases List.mem_append.1 h with h | h
    · exact .inl (List.mem_of_mem_take h)
    · rcases List.mem_cons.1 h with rfl | h
      · exact .inr rfl
      · exact .inl (List.mem_of_mem_drop h)
  | erase name => exact .inl (List.mem_of_mem_eraseP h)

theorem Tag.Canonical.apply {e : TagEdit} (h : tag.Canonical)
    (he : ∀ a ∈ e.attribute?, a.Canonical) : (e.apply tag).Canonical := by
  have hkept : (e.apply tag).name = tag.name ∧ (e.apply tag).closing = tag.closing := by
    cases e <;> exact ⟨rfl, rfl⟩
  refine ⟨?_, ?_, ?_, fun a ha ↦ ?_⟩
  · rw [hkept.1]
    exact h.name_ne_nil
  · rw [hkept.1]
    exact h.isPart
  · rw [hkept.2]
    exact h.opening
  · exact (mem_attributes_apply ha).elim (h.attributes a) (he a)

theorem Tag.Closed.apply {e : TagEdit} (h : tag.Closed) (he : ∀ a ∈ e.attribute?, a.Closed) :
    (e.apply tag).Closed :=
  fun a ha ↦ (mem_attributes_apply ha).elim (h a) (he a)

theorem Tag.Canonical.states {edits : List TagEdit} (h : tag.Canonical) (hclosed : tag.Closed)
    (hedits : ∀ e ∈ edits, ∀ a ∈ e.attribute?, a.Canonical ∧ a.Closed) :
    ∀ state ∈ tag.states edits, state.Canonical ∧ state.Closed := by
  induction edits generalizing tag with
  | nil =>
    intro state hstate
    cases List.mem_singleton.1 hstate
    exact ⟨h, hclosed⟩
  | cons e edits ih =>
    rw [List.forall_mem_cons] at hedits
    intro state hstate
    rcases List.mem_cons.1 hstate with rfl | hstate
    · exact ⟨h, hclosed⟩
    · have hfirst := h.apply fun a ha ↦ (hedits.1 a ha).1
      exact ih hfirst (hclosed.apply fun a ha ↦ (hedits.1 a ha).2) hedits.2 state hstate

end Edits

/-- Whatever is set, inserted and removed, the tag is the one that its text reads back as. What is
set can be looked up, and removing takes out the first attribute of a name alone. -/
theorem parseTag_render_states (tag : Tag) (edits : List TagEdit) (htag : tag.Canonical)
    (hclosed : tag.Closed) (hedits : ∀ e ∈ edits, ∀ a ∈ e.attribute?, a.Canonical ∧ a.Closed) :
    ∀ state ∈ tag.states edits, parseTag state.render = state ∧
      (∀ name value, (state.set name value).get? name = some { name, value }) ∧
      ∀ name, ∃ attributes, ErasesFirst name state.attributes attributes ∧
        state.erase name = { state with attributes } := by
  intro state hstate
  obtain ⟨hcanonical, hstateClosed⟩ := htag.states hclosed hedits state hstate
  refine ⟨hcanonical.parseTag_render hstateClosed, fun name value ↦ ?_, fun name ↦ ?_⟩
  · exact find?_assign state.attributes
  · exact ⟨_, erasesFirst_eraseP state.attributes, rfl⟩

def quotedButton : Tag where
  name := "button"
  attributes := [{ name := "disabled" }, { name := "<%= html(\"a\") %>" },
    { name := "class", value := some "b <%= size[\"b\"] %>" },
    { name := "title", value := some "a \"b\"", quote := '\'' }]
  selfClosing := true

def buttonEdits : List TagEdit :=
  [.set "title" (some "<%= t(\"title\") %>"), .insert (-1) "hidden" none, .erase "disabled"]

theorem parseTag_render_states_quotedButton :
    quotedButton.Canonical ∧ ∀ state ∈ quotedButton.states buttonEdits,
      parseTag state.render = state := by
  have hword {name : Text} (h : name ≠ [] ∧ name.all isAttributeNamePart = true ∧
      ¬startsDirective name = true) : AttributeWord name :=
    ⟨h.1, List.all_eq_true.1 h.2.1, h.2.2⟩
  have hhtml : ¬("%>" : Text) <:+: "= html(\"a\") " := by decide
  have hcanonical : quotedButton.Canonical := by
    refine ⟨by decide, by decide, rfl, ?_⟩
    change ∀ a ∈ [_, _, _, _], TagAttribute.Canonical a
    simp only [List.forall_mem_cons]
    refine ⟨.bare (hword (by decide)), .directive hhtml,
      .valued (hword (by decide)) (by decide) (by decide),
      .valued (hword (by decide)) (by decide) (by decide), nofun⟩
  have hclosed : quotedButton.Closed := by
    change ∀ a ∈ [_, _, _, _], TagAttribute.Closed a
    simp only [List.forall_mem_cons]
    refine ⟨?_, ?_, ?_, ?_, nofun⟩
    all_goals simp only [TagAttribute.Closed]; decide
  have hedits : ∀ e ∈ buttonEdits, ∀ a ∈ e.attribute?, a.Canonical ∧ a.Closed := by
    simp only [buttonEdits, List.forall_mem_cons, TagEdit.attribute?]
    refine ⟨?_, ?_, nofun, nofun⟩
    · rintro _ ⟨⟩
      refine ⟨.valued (hword (by decide)) (by decide) (by decide), ?_⟩
      simp only [TagAttribute.Closed]; decide
    · rintro _ ⟨⟩
      exact ⟨.bare (hword (by decide)), nofun⟩
  refine ⟨hcanonical, fun state hstate ↦ ?_⟩
  exact (parseTag_render_states quotedButton buttonEdits hcanonical hclosed hedits state hstate).1

/-- A value may open a directive without closing it, and then has no quote to enclose. -/
def unclosedValue : Tag where
  name := "p"
  attributes := [{ name := "a", value := some "<%" }]

theorem parseTag_render_unclosedValue :
    unclosedValue.Canonical ∧ parseTag unclosedValue.render ≠ unclosedValue := by
  refine ⟨⟨by decide, by decide, rfl, ?_⟩, by decide⟩
  have hword : AttributeWord "a" := ⟨by decide, List.all_eq_true.1 (by decide), by decide⟩
  exact List.forall_mem_singleton.2 (.valued hword (by decide) (by decide))

end ViewForge.Erb
