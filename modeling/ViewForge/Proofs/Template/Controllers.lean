import ViewForge.Proofs.Erb.LayoutContent
import ViewForge.Proofs.Markup.Bindings
import ViewForge.Proofs.Naming
import ViewForge.Proofs.Template.Rewording

namespace ViewForge.Template

open Text Erb Markup

/-- A word of an action. Its first arrow is the one the controller is named behind. -/
inductive Qualifies (id : Text) : Text → Text → Prop
  | named (event handler : Text) : ¬("->" : Text) <:+: event → '#' ∉ event ++ "->" ++ handler →
      Qualifies id (event ++ "->" ++ handler) (event ++ "->" ++ id ++ "#" ++ handler)
  | kept {w : Text} : '#' ∈ w ∨ ¬("->" : Text) <:+: w → Qualifies id w w

/-- A value with its words qualified, single spaces between them. -/
structure QualifiesWords (id v v' : Text) : Prop where
  words : List.Forall₂ (Qualifies id) (words v) (words v')
  spaced : join " " (Text.words v') = v'

/-- The value of the first attribute of that name is changed, if there is one. -/
inductive EditsFirst (name : Text) (R : Text → Text → Prop) :
    List TagAttribute → List TagAttribute → Prop
  | absent {attributes : List TagAttribute} : (∀ a ∈ attributes, a.name ≠ name) →
      EditsFirst name R attributes attributes
  | bare {before after : List TagAttribute} {a : TagAttribute} : (∀ b ∈ before, b.name ≠ name) →
      a.name = name → a.value = none →
      EditsFirst name R (before ++ a :: after) (before ++ a :: after)
  | valued {before after : List TagAttribute} {a : TagAttribute} {v v' : Text} :
      (∀ b ∈ before, b.name ≠ name) → a.name = name → a.value = some v → R v v' →
      EditsFirst name R (before ++ a :: after) (before ++ { a with value := some v' } :: after)

/-- The identifier is put in front, unless the first `data-controller` has a value. Then it is put
behind that, unless it is there. -/
inductive AddsController (id : Text) : List TagAttribute → List TagAttribute → Prop
  | inserted {attributes : List TagAttribute} :
      (∀ a ∈ attributes.find? (·.name == ("data-controller" : Text)), a.value.getD [] = []) →
      AddsController id attributes ({ name := "data-controller", value := some id } :: attributes)
  | present {before after : List TagAttribute} {a : TagAttribute} {v : Text} :
      (∀ b ∈ before, b.name ≠ "data-controller") → a.name = "data-controller" →
      a.value = some v → id ∈ words v →
      AddsController id (before ++ a :: after) (before ++ a :: after)
  | appended {before after : List TagAttribute} {a : TagAttribute} {v : Text} :
      (∀ b ∈ before, b.name ≠ "data-controller") → a.name = "data-controller" →
      a.value = some v → v ≠ [] → id ∉ words v →
      AddsController id (before ++ a :: after)
        (before ++ { a with value := some (v ++ ' ' :: id) } :: after)

/-- The first value of that name that is not empty. -/
def firstValue? (name : Text) (attributes : List TagAttribute) : Option Text :=
  attributes.findSome? fun a ↦ if a.name == name then a.value.filter (!·.isEmpty) else none

inductive BindsRoot (id : Text) : Token → Token → Prop
  | mk {tag : Tag} {t t' v : Text} {bound attributes : List TagAttribute} : OpenTagText tag t →
      EditsFirst "data-action" (QualifiesWords id) tag.attributes bound →
      AddsController id bound attributes →
      firstValue? "data-controller" attributes = some v → id ∈ words v →
      OpenTagText { tag with attributes } t' → BindsRoot id ⟨.openTag, t⟩ ⟨.openTag, t'⟩

/-- What becomes of a token behind the first opening tag. -/
inductive BindsToken (id : Text) : Token → Token → Prop
  | kept {k : Token} :
      (isOpenTag k = true → givenValue? (parseTag k.text) "data-action" = none) → BindsToken id k k
  | openTag {tag : Tag} {t t' : Text} {attributes : List TagAttribute} : OpenTagText tag t →
      (givenValue? tag "data-action").isSome = true →
      EditsFirst "data-action" (QualifiesWords id) tag.attributes attributes →
      OpenTagText { tag with attributes } t' → BindsToken id ⟨.openTag, t⟩ ⟨.openTag, t'⟩

inductive BindsTokens (id : Text) : List Token → List Token → Prop
  | mk {before after after' : List Token} {root root' : Token} :
      (∀ k ∈ before, isOpenTag k = false) → BindsRoot id root root' →
      List.Forall₂ (BindsToken id) after after' →
      BindsTokens id (before ++ root :: after) (before ++ root' :: after')

section Qualify

variable {id w : Text}

theorem qualifies_qualify (id w : Text) : Qualifies id w (qualify id w) := by
  rw [qualify]
  split
  next event handler hbreak =>
    split
    next hhash => exact .kept (.inl (by simpa using hhash))
    next hhash =>
      have hshape := breakOn_eq_some hbreak
      have hfirst := not_infix_of_breakOn (by decide) hbreak
      subst hshape
      exact .named event handler hfirst (by simpa using hhash)
  next hbreak =>
    refine .kept (.inr fun hin ↦ ?_)
    have hoccurs := (occursIn_iff (by decide)).2 hin
    rw [occursIn, hbreak] at hoccurs
    cases hoccurs

theorem qualify_of_mem (h : '#' ∈ w) : qualify id w = w := by
  have hcontains : w.contains '#' = true := by simpa using h
  rw [qualify]
  split
  · rw [if_pos hcontains]
  · rfl

theorem qualify_qualify (id w : Text) : qualify id (qualify id w) = qualify id w := by
  have h := qualifies_qualify id w
  generalize hw : qualify id w = w' at h
  cases h with
  | named event handler _ _ => exact qualify_of_mem (by simp)
  | kept _ => exact hw

theorem isWord_qualify (hid : IsWord id) (hw : IsWord w) : IsWord (qualify id w) := by
  refine ⟨qualify_ne_nil hw.1, ?_⟩
  have h := qualifies_qualify id w
  generalize qualify id w = w' at h
  cases h with
  | named event handler _ _ =>
    have hsolid := hw.2
    rw [List.forall_mem_append, List.forall_mem_append] at hsolid
    simp only [List.forall_mem_append]
    refine ⟨⟨⟨hsolid.1, hid.2⟩, fun c hc ↦ ?_⟩, hsolid.2⟩
    have hhash : ("#" : Text).all (!isBlank ·) = true := by decide
    simpa using List.all_eq_true.1 hhash c hc
  | kept _ => exact hw.2

def qualified (id v : Text) : Text := join " " ((words v).map (qualify id))

theorem words_qualified (hid : IsWord id) (v : Text) :
    words (qualified id v) = (words v).map (qualify id) := by
  refine words_join fun w hw ↦ ?_
  obtain ⟨w, hmem, rfl⟩ := List.mem_map.1 hw
  exact isWord_qualify hid (isWord_of_mem_words hmem)

theorem qualified_qualified (hid : IsWord id) (v : Text) :
    qualified id (qualified id v) = qualified id v := by
  rw [qualified, words_qualified hid, List.map_map, qualified]
  exact congrArg _ (List.map_congr_left fun w _ ↦ qualify_qualify id w)

theorem qualifiesWords_qualified (hid : IsWord id) (v : Text) :
    QualifiesWords id v (qualified id v) := by
  refine ⟨?_, ?_⟩
  · rw [words_qualified hid, List.forall₂_map_right_iff, List.forall₂_same]
    exact fun w _ ↦ qualifies_qualify id w
  · rw [words_qualified hid]
    rfl

theorem words_append_word (hid : IsWord id) (v : Text) :
    words (v ++ ' ' :: id) = words v ++ [id] := by
  induction v using words_induction with
  | nil => rw [List.nil_append, words_cons_blank id (by decide), words_of_isWord hid]; rfl
  | blank c r hc ih =>
    rw [List.cons_append, words_cons_blank _ hc, words_cons_blank r hc, ih]
  | last w hw =>
    rw [words_append_blank id hw (by decide), words_of_isWord hw, words_of_isWord hid]
    rfl
  | word w c r hw hc ih =>
    rw [List.append_assoc, List.cons_append, words_append_blank _ hw hc,
      words_append_blank r hw hc, ih]
    rfl

end Qualify

section Edit

variable {name : Text} {edit : Text → Text} {as bs : List TagAttribute} {a : TagAttribute}

theorem EditsFirst.cons {R : Text → Text → Prop} (ha : a.name ≠ name)
    (h : EditsFirst name R as bs) : EditsFirst name R (a :: as) (a :: bs) := by
  cases h with
  | absent h => exact .absent (List.forall_mem_cons.2 ⟨ha, h⟩)
  | @bare before after b hb hname hvalue =>
    exact @bare name R (a :: before) after b (List.forall_mem_cons.2 ⟨ha, hb⟩) hname hvalue
  | @valued before after b v v' hb hname hvalue hv =>
    exact @valued name R (a :: before) after b v v' (List.forall_mem_cons.2 ⟨ha, hb⟩) hname hvalue
      hv

theorem editsFirst_editValue {R : Text → Text → Prop} (h : ∀ v, R v (edit v))
    (as : List TagAttribute) : EditsFirst name R as (editValue name edit as) := by
  induction as with
  | nil => exact .absent nofun
  | cons a as ih =>
    rw [editValue]
    split
    next hname =>
      rw [beq_iff_eq] at hname
      cases hvalue : a.value with
      | none =>
        have hsame : { a with value := none } = a := by rw [← hvalue]
        rw [Option.map_none, hsame]
        exact @EditsFirst.bare name R [] as a nofun hname hvalue
      | some v => exact @EditsFirst.valued name R [] as a v (edit v) nofun hname hvalue (h v)
    next hname => exact ih.cons (by simpa using hname)

theorem editValue_editValue (h : ∀ v, edit (edit v) = edit v) (as : List TagAttribute) :
    editValue name edit (editValue name edit as) = editValue name edit as := by
  induction as with
  | nil => rfl
  | cons a as ih =>
    by_cases hname : a.name = name
    · simp [editValue, hname, Function.comp_def, h]
    · simp [editValue, hname, ih]

theorem editValue_comm {name' : Text} (hne : name ≠ name') (edit' : Text → Text)
    (as : List TagAttribute) :
    editValue name edit (editValue name' edit' as) =
      editValue name' edit' (editValue name edit as) := by
  induction as with
  | nil => rfl
  | cons a as ih =>
    by_cases hname : a.name = name
    · simp [editValue, hname, hne]
    · by_cases hname' : a.name = name'
      · simp [editValue, hname', Ne.symm hne]
      · simp [editValue, hname, hname', ih]

theorem editValue_eq_self
    (h : ∀ a ∈ as.find? (·.name == name), a.value.map edit = a.value) :
    editValue name edit as = as := by
  induction as with
  | nil => rfl
  | cons a as ih =>
    by_cases hname : a.name = name
    · have hvalue : a.value.map edit = a.value := h a (by simp [hname])
      rw [editValue, if_pos (beq_iff_eq.2 hname), hvalue]
    · have hrest := ih fun b hb ↦ h b (by simpa [hname] using hb)
      simp [editValue, hname, hrest]

theorem cleanAttribute_edit
    (h : ∀ q v, isQuote q = true → CleanValue q v → CleanValue q (edit v))
    (ha : CleanAttribute a) : CleanAttribute { a with value := a.value.map edit } := by
  cases ha with
  | bare hn => exact .bare hn
  | valued hn hq hv => exact .valued hn hq (h _ _ hq hv)
  | directive hd => exact .directive hd

end Edit

section Given

variable {tag : Tag} {name v : Text} {before after : List TagAttribute} {a : TagAttribute}

theorem exists_of_givenValue? (h : givenValue? tag name = some v) :
    ∃ a, tag.get? name = some a ∧ a.value = some v ∧ v ≠ [] := by
  rw [givenValue?] at h
  split at h
  next c r hbind =>
    cases h
    obtain ⟨a, hget, hvalue⟩ := Option.bind_eq_some_iff.1 hbind
    exact ⟨a, hget, hvalue, List.cons_ne_nil c r⟩
  next => cases h

theorem givenValue?_of_get? (hget : tag.get? name = some a) (ha : a.value = some v)
    (hv : v ≠ []) : givenValue? tag name = some v := by
  obtain ⟨c, r, rfl⟩ := List.exists_cons_of_ne_nil hv
  simp [givenValue?, hget, ha]

theorem getD_of_givenValue? (h : givenValue? tag name = none) :
    ∀ a ∈ tag.get? name, a.value.getD [] = [] := by
  intro a ha
  by_contra hne
  cases hvalue : a.value with
  | none => simp [hvalue] at hne
  | some v =>
    rw [givenValue?_of_get? ha hvalue (by simpa [hvalue] using hne)] at h
    cases h

theorem get?_append (hbefore : ∀ b ∈ before, b.name ≠ name) (ha : a.name = name)
    (htag : tag.attributes = before ++ a :: after) : tag.get? name = some a := by
  have hnone : before.find? (·.name == name) = none := by
    rw [List.find?_eq_none]
    exact fun b hb ↦ by simpa using hbefore b hb
  rw [Tag.get?, htag, List.find?_append, hnone]
  simp [ha]

theorem exists_append_of_get? (h : tag.get? name = some a) :
    ∃ before after, tag.attributes = before ++ a :: after ∧ (∀ b ∈ before, b.name ≠ name) ∧
      a.name = name := by
  obtain ⟨hname, before, after, hattributes, hbefore⟩ := List.find?_eq_some_iff_append.1 h
  exact ⟨before, after, hattributes, fun b hb ↦ by simpa using hbefore b hb, by simpa using hname⟩

theorem firstValue?_of_givenValue? (h : givenValue? tag name = some v) :
    firstValue? name tag.attributes = some v := by
  obtain ⟨a, hget, hvalue, hv⟩ := exists_of_givenValue? h
  obtain ⟨before, after, hattributes, hbefore, hname⟩ := exists_append_of_get? hget
  have hnone : (before.findSome? fun a ↦
      if a.name == name then a.value.filter (!·.isEmpty) else none) = none := by
    rw [List.findSome?_eq_none_iff]
    exact fun b hb ↦ by simp [hbefore b hb]
  rw [firstValue?, hattributes, List.findSome?_append, hnone]
  simp [hname, hvalue, hv]

end Given

section Tag

variable {id : Text} {tag : Tag}

theorem bindActions_eq (id : Text) (tag : Tag) : bindActions id tag =
    { tag with attributes := editValue "data-action" (qualified id) tag.attributes } := rfl

theorem bindActions_of_none (h : givenValue? tag "data-action" = none) :
    bindActions id tag = tag := by
  have hsame : editValue "data-action" (qualified id) tag.attributes = tag.attributes := by
    refine editValue_eq_self fun a ha ↦ ?_
    have hempty := getD_of_givenValue? h a ha
    cases hvalue : a.value with
    | none => rfl
    | some v =>
      have hv : v = [] := by simpa [hvalue] using hempty
      subst hv
      rfl
  rw [bindActions_eq, hsame]

theorem bindActions_bindActions (hid : IsWord id) (tag : Tag) :
    bindActions id (bindActions id tag) = bindActions id tag := by
  simp only [bindActions_eq, editValue_editValue (qualified_qualified hid)]

theorem addsController_bindRoot (id : Text) (tag : Tag) :
    AddsController id tag.attributes (bindRoot id tag).attributes := by
  rw [bindRoot]
  split
  next v hv =>
    obtain ⟨a, hget, hvalue, hne⟩ := exists_of_givenValue? hv
    obtain ⟨before, after, hattributes, hbefore, hname⟩ := exists_append_of_get? hget
    split
    next hin =>
      rw [hattributes]
      exact .present hbefore hname hvalue (by simpa using hin)
    next hout =>
      have hedit : editValue "data-controller" (· ++ ' ' :: id) (a :: after) =
          { a with value := some (v ++ ' ' :: id) } :: after := by
        rw [editValue, if_pos (beq_iff_eq.2 hname), hvalue]
        rfl
      rw [hattributes, editValue_append _ _ _ hbefore, hedit]
      exact .appended hbefore hname hvalue hne (by simpa using hout)
  next hnone => exact .inserted (getD_of_givenValue? hnone)

theorem AddsController.exists_givenValue? {as : List TagAttribute} (hid : IsWord id)
    (h : AddsController id as tag.attributes) :
    ∃ v, givenValue? tag "data-controller" = some v ∧ id ∈ words v := by
  generalize htag : tag.attributes = bs at h
  cases h with
  | inserted h =>
    have hbefore : ∀ b ∈ ([] : List TagAttribute), b.name ≠ "data-controller" := nofun
    have hget := get?_append hbefore rfl htag
    exact ⟨id, givenValue?_of_get? hget rfl hid.1, by simp [words_of_isWord hid]⟩
  | @present before after a v hbefore hname hvalue hv =>
    have hne : v ≠ [] := by
      rintro rfl
      cases hv
    exact ⟨v, givenValue?_of_get? (get?_append hbefore hname htag) hvalue hne, hv⟩
  | @appended before after a v hbefore hname hvalue hne hv =>
    have hget := get?_append (a := { a with value := some (v ++ ' ' :: id) }) hbefore hname htag
    exact ⟨_, givenValue?_of_get? hget rfl (by simp), by simp [words_append_word hid]⟩

theorem bindRoot_bindRoot (hid : IsWord id) (tag : Tag) :
    bindRoot id (bindRoot id tag) = bindRoot id tag := by
  obtain ⟨v, hv, hmem⟩ := (addsController_bindRoot id tag).exists_givenValue? hid
  have hcontains : (words v).contains id = true := by simpa using hmem
  rw [bindRoot]
  simp only [hv, hcontains, if_true]

theorem bindActions_bindRoot (h : bindActions id tag = tag) :
    bindActions id (bindRoot id tag) = bindRoot id tag := by
  have hsame : editValue "data-action" (qualified id) tag.attributes = tag.attributes :=
    congrArg Tag.attributes h
  rw [bindRoot]
  split
  next v _ =>
    split
    · exact h
    · simp only [bindActions_eq]
      rw [editValue_comm (by decide), hsame]
  next =>
    have hname : ∀ a ∈ [TagAttribute.mk "data-controller" (some id) '"'],
        a.name ≠ "data-action" :=
      List.forall_mem_singleton.2 (by decide : ("data-controller" : Text) ≠ "data-action")
    have hinsert : (tag.insert 0 "data-controller" (some id)).attributes =
        [TagAttribute.mk "data-controller" (some id) '"'] ++ tag.attributes := rfl
    rw [bindActions_eq, hinsert, editValue_append _ _ _ hname, hsame]
    rfl

def boundTag (id : Text) (root : Bool) (tag : Tag) : Tag :=
  if root then bindRoot id (bindActions id tag) else bindActions id tag

theorem boundTag_eq (id : Text) (root : Bool) (tag : Tag) :
    boundTag id root tag = { tag with attributes := (boundTag id root tag).attributes } := by
  have hroot (tag : Tag) :
      bindRoot id tag = { tag with attributes := (bindRoot id tag).attributes } := by
    rw [bindRoot]
    split
    · split <;> rfl
    · rfl
  cases root with
  | false => rfl
  | true => exact hroot (bindActions id tag)

theorem boundTag_boundTag (hid : IsWord id) (root : Bool) (tag : Tag) :
    boundTag id root (boundTag id root tag) = boundTag id root tag := by
  have hactions := bindActions_bindActions hid tag
  cases root with
  | false => exact hactions
  | true =>
    change bindRoot id (bindActions id (bindRoot id (bindActions id tag))) = _
    rw [bindActions_bindRoot hactions, bindRoot_bindRoot hid]
    rfl

theorem cleanAttribute_boundTag (hid : id.all isMarkupNamePart = true) (root : Bool)
    (h : ∀ a ∈ tag.attributes, CleanAttribute a) :
    ∀ a ∈ (boundTag id root tag).attributes, CleanAttribute a := by
  have hplain {q : Char} (hq : isQuote q = true) : CleanValue q id := by
    have happend := cleanValue_name_append (all_isNamePartOrHash hid) hq .nil
    rwa [List.append_nil] at happend
  have hactions : ∀ a ∈ (bindActions id tag).attributes, CleanAttribute a :=
    forall_mem_editValue "data-action" h fun _ ↦
      cleanAttribute_edit fun _ _ hq hv ↦ cleanValue_qualified hid hq hv
  cases root with
  | false => exact hactions
  | true =>
    change ∀ a ∈ (bindRoot id (bindActions id tag)).attributes, CleanAttribute a
    rw [bindRoot]
    split
    next =>
      split
      · exact hactions
      · refine forall_mem_editValue "data-controller" hactions fun _ ↦
          cleanAttribute_edit fun q v hq hv ↦ ?_
        refine hv.append_cons (by decide) (.char ?_ ?_ (hplain hq))
        · exact (ne_of_class hq (by decide)).symm
        · exact not_startsDirective_of_ne _ (by decide)
    next =>
      have hcontroller : CleanAttribute { name := "data-controller", value := some id } :=
        .valued (by decide) (by decide) (hplain (by decide))
      exact List.forall_mem_cons.2 ⟨hcontroller, hactions⟩

end Tag

section Tokens

variable {id : Text} {k : Token} {ts : List Token}

def boundToken (id : Text) (root : Bool) (k : Token) : Token :=
  if isOpenTag k && (root || (givenValue? (parseTag k.text) "data-action").isSome) then
    ⟨.openTag, (boundTag id root (parseTag k.text)).render⟩
  else k

theorem bindTokens_cons (id : Text) (root : Bool) (k : Token) (rest : List Token) :
    bindTokens id root (k :: rest) =
      boundToken id root k :: bindTokens id (root && !isOpenTag k) rest := by
  have hbound : (if (givenValue? (parseTag k.text) "data-action").isSome then
      bindActions id (parseTag k.text) else parseTag k.text) =
        bindActions id (parseTag k.text) := by
    cases haction : givenValue? (parseTag k.text) "data-action" with
    | none => exact (bindActions_of_none haction).symm
    | some v => rfl
  rw [bindTokens, boundToken]
  simp only [hbound]
  generalize (givenValue? (parseTag k.text) "data-action").isSome = hasAction
  cases isOpenTag k <;> cases root <;> cases hasAction <;> rfl

theorem bindTokens_root {before after : List Token} {root : Token}
    (hbefore : ∀ k ∈ before, isOpenTag k = false) (hroot : isOpenTag root = true) :
    bindTokens id true (before ++ root :: after) =
      before ++ boundToken id true root :: after.map (boundToken id false) := by
  have hrest (after : List Token) :
      bindTokens id false after = after.map (boundToken id false) := by
    induction after with
    | nil => rfl
    | cons k after ih => rw [bindTokens_cons, Bool.false_and, ih, List.map_cons]
  induction before with
  | nil => rw [List.nil_append, bindTokens_cons, hroot, Bool.not_true, Bool.and_false, hrest]; rfl
  | cons k before ih =>
    rw [List.forall_mem_cons] at hbefore
    have hkept : boundToken id true k = k := by simp [boundToken, hbefore.1]
    rw [List.cons_append, bindTokens_cons, hbefore.1, hkept]
    exact congrArg (k :: ·) (ih hbefore.2)

theorem kind_boundToken (id : Text) (root : Bool) (k : Token) :
    (boundToken id root k).kind = k.kind := by
  rw [boundToken]
  split
  next hopen =>
    rw [Bool.and_eq_true] at hopen
    exact (beq_iff_eq.1 hopen.1).symm
  next => rfl

/-- An identifier that may stand in a value and among its words. -/
structure IsIdentifier (id : Text) : Prop where
  ne_nil : id ≠ []
  isPart : id.all isMarkupNamePart = true

theorem IsIdentifier.isWord (h : IsIdentifier id) : IsWord id :=
  ⟨h.ne_nil, fun c hc ↦ isBlank_of_isMarkupNamePart (List.all_eq_true.1 h.isPart c hc)⟩

variable (hid : IsIdentifier id)

include hid

theorem openTagText_boundTag {tag : Tag} {t : Text} (root : Bool) (h : OpenTagText tag t) :
    OpenTagText (boundTag id root tag) (boundTag id root tag).render := by
  have hname : (boundTag id root tag).name = tag.name := by rw [boundTag_eq]
  have hclosing : (boundTag id root tag).closing = tag.closing := by rw [boundTag_eq]
  refine openTagText_render ?_ (hclosing.trans h.closing_eq)
    (cleanAttribute_boundTag hid.isPart root h.cleanAttribute)
  rw [hname]
  exact h.isTagName

/-- Binding a regular token gives a regular token of its kind, bound already. -/
theorem regular_boundToken (root : Bool) (h : k.Regular) :
    (boundToken id root k).Regular ∧
      boundToken id root (boundToken id root k) = boundToken id root k := by
  by_cases hbinds : isOpenTag k && (root || (givenValue? (parseTag k.text) "data-action").isSome)
  · have hopen : k.kind = .openTag := beq_iff_eq.1 (Bool.and_eq_true_iff.1 hbinds).1
    obtain ⟨tag, ht⟩ := h.openTag hopen
    have htext := openTagText_boundTag hid root ht
    have hbound : boundToken id root k = ⟨.openTag, (boundTag id root tag).render⟩ := by
      rw [boundToken, if_pos hbinds, ht.parseTag_eq]
    rw [hbound]
    refine ⟨⟨htext.clean, fun _ ↦ ⟨_, htext⟩⟩, ?_⟩
    rw [boundToken, htext.parseTag_eq, boundTag_boundTag hid.isWord]
    split <;> rfl
  · have hkept : boundToken id root k = k := if_neg hbinds
    rw [hkept]
    exact ⟨h, hkept⟩

/-- The same for a run of tokens. -/
theorem regular_bindTokens (root : Bool) (h : ∀ k ∈ ts, k.Regular) :
    (∀ k ∈ bindTokens id root ts, k.Regular) ∧
      (bindTokens id root ts).map Token.kind = ts.map Token.kind ∧
      bindTokens id root (bindTokens id root ts) = bindTokens id root ts := by
  induction ts generalizing root with
  | nil => exact ⟨nofun, rfl, rfl⟩
  | cons k ts ih =>
    rw [List.forall_mem_cons] at h
    obtain ⟨hregular, hagain⟩ := regular_boundToken hid root h.1
    obtain ⟨hrest, hkinds, hfixed⟩ := ih (root && !isOpenTag k) h.2
    have hopen : isOpenTag (boundToken id root k) = isOpenTag k :=
      congrArg (· == TokenKind.openTag) (kind_boundToken id root k)
    rw [bindTokens_cons]
    refine ⟨List.forall_mem_cons.2 ⟨hregular, hrest⟩, ?_, ?_⟩
    · rw [List.map_cons, List.map_cons, kind_boundToken, hkinds]
    · rw [bindTokens_cons, hopen, hagain, hfixed]

theorem bindsToken_boundToken (h : k.Regular) : BindsToken id k (boundToken id false k) := by
  rw [boundToken]
  split
  next hbinds =>
    rw [Bool.false_or, Bool.and_eq_true] at hbinds
    obtain ⟨kind, t⟩ := k
    cases beq_iff_eq.1 hbinds.1
    obtain ⟨tag, ht⟩ := h.openTag rfl
    rw [ht.parseTag_eq] at hbinds ⊢
    exact .openTag ht hbinds.2 (editsFirst_editValue (qualifiesWords_qualified hid.isWord) _)
      (openTagText_boundTag hid false ht)
  next hbinds =>
    refine .kept fun hopen ↦ ?_
    simpa [hopen] using hbinds

theorem bindsRoot_boundToken (h : k.Regular) (hopen : isOpenTag k = true) :
    BindsRoot id k (boundToken id true k) := by
  obtain ⟨kind, t⟩ := k
  cases beq_iff_eq.1 hopen
  obtain ⟨tag, ht⟩ := h.openTag rfl
  have hadds := addsController_bindRoot id (bindActions id tag)
  obtain ⟨v, hv, hmem⟩ := hadds.exists_givenValue? hid.isWord
  have htext := openTagText_boundTag hid true ht
  rw [boundTag_eq] at htext
  rw [boundToken, if_pos (by simp [hopen]), ht.parseTag_eq, boundTag_eq]
  exact .mk ht (editsFirst_editValue (qualifiesWords_qualified hid.isWord) _) hadds
    (firstValue?_of_givenValue? hv) hmem htext

end Tokens

theorem isIdentifier_controllerIdentifier {c : Component} (h : Naming.isName c.name = true) :
    IsIdentifier c.controllerIdentifier := by
  have hall : c.name.all isMarkupNamePart = true := by
    have hcharacters := Naming.all_isNameCharacter_of_isName h
    rw [List.all_eq_true] at hcharacters ⊢
    exact fun d hd ↦ Naming.isMarkupNamePart_of_isNameCharacter (hcharacters d hd)
  refine ⟨kebabCase_ne_nil ?_, all_isMarkupNamePart_kebabCase hall⟩
  cases hname : c.name with
  | nil =>
    rw [hname] at h
    cases h
  | cons d r =>
    rw [hname, Naming.isName, Bool.and_eq_true] at h
    rw [hname, List.all_cons, Bool.and_eq_true] at hall
    rw [isMarkupName, h.1, hall.2]
    rfl

theorem any_isOpenTag_of_kinds {ts us : List Token}
    (hkinds : us.map Token.kind = ts.map Token.kind) (h : ts.any isOpenTag = true) :
    us.any isOpenTag = true := by
  have hmap (vs : List Token) : vs.any isOpenTag = (vs.map Token.kind).any (· == .openTag) := by
    rw [List.any_map]
    rfl
  rwa [hmap, hkinds, ← hmap]

theorem exists_root {ts : List Token} (h : ts.any isOpenTag = true) :
    ∃ before root after, ts = before ++ root :: after ∧ (∀ k ∈ before, isOpenTag k = false) ∧
      isOpenTag root = true := by
  obtain ⟨root, hroot⟩ := Option.isSome_iff_exists.1 (List.find?_isSome.2 (List.any_eq_true.1 h))
  obtain ⟨hopen, before, after, hsplit, hbefore⟩ := List.find?_eq_some_iff_append.1 hroot
  exact ⟨before, root, after, hsplit, fun k hk ↦ by simpa using hbefore k hk, hopen⟩

theorem bindController_render (c : Component) {ts : List Token} (h : ∀ k ∈ ts, k.Regular)
    (hsep : ts.IsChain Token.Separate) (hopen : ts.any isOpenTag = true) :
    bindController c (render ts) = render (bindTokens c.controllerIdentifier true ts) := by
  rw [bindController, tokenize_eq_of_render rfl (fun k hk ↦ (h k hk).clean) hsep]
  exact if_pos hopen

/-- Binding a controller to a clean template that has a tag. The root comes to name the controller,
the actions of every tag are qualified, and all else stays; binding it again changes nothing. -/
theorem bindsTokens_bindController (c : Component) (ts : List Token)
    (hname : Naming.isName c.name = true) (h : ∀ k ∈ ts, k.Regular)
    (hsep : ts.IsChain Token.Separate) (hopen : ts.any isOpenTag = true) :
    BindsTokens c.controllerIdentifier ts (tokenize (bindController c (render ts))) ∧
      bindController c (bindController c (render ts)) = bindController c (render ts) := by
  have hid := isIdentifier_controllerIdentifier hname
  obtain ⟨before, root, after, rfl, hbefore, hroot⟩ := exists_root hopen
  obtain ⟨hregular, hkinds, hfixed⟩ := regular_bindTokens hid true h
  have hbind := bindController_render c h hsep hopen
  have hcut := tokenize_eq_of_render rfl (fun k hk ↦ (hregular k hk).clean)
    (separate_of_kinds hkinds hsep)
  refine ⟨?_, ?_⟩
  · rw [hbind, hcut, bindTokens_root hbefore hroot]
    refine .mk hbefore (bindsRoot_boundToken hid (h root (by simp)) hroot) ?_
    rw [List.forall₂_map_right_iff, List.forall₂_same]
    exact fun k hk ↦ bindsToken_boundToken hid (h k (by simp [hk]))
  · have hopen' := any_isOpenTag_of_kinds hkinds hopen
    rw [hbind, bindController_render c hregular (separate_of_kinds hkinds hsep) hopen', hfixed]

/-- A template with an action in its root, one in a directive and a tag without any. -/
def wiredPanel : List Token :=
  [⟨.text, "a"⟩, ⟨.openTag, "<div data-action=\"click->go  keyup->list#key\">"⟩,
    ⟨.openTag, "<b  hidden>"⟩, ⟨.closeTag, "</b>"⟩,
    ⟨.openTag, "<i data-action='<%= \"blur->end\" %> x'>"⟩, ⟨.closeTag, "</i>"⟩,
    ⟨.closeTag, "</div>"⟩]

theorem regular_wiredPanel : ∀ k ∈ wiredPanel, k.Regular := by
  simp only [wiredPanel, List.forall_mem_cons]
  refine ⟨⟨.text (by decide) (by decide), nofun⟩, ?_, ?_, ⟨.closeTag "b" (by decide), nofun⟩, ?_,
    ⟨.closeTag "i" (by decide), nofun⟩, ⟨.closeTag "div" (by decide), nofun⟩, nofun⟩
  · have hactions : CleanValue '"' "click->go  keyup->list#key" :=
      cleanValue_of_isQuotable (by decide)
    have hdiv := @openTagText_render ⟨"div", [⟨"data-action", some _, '"'⟩], false, false⟩
      (by decide) rfl (List.forall_mem_singleton.2 (.valued (by decide) (by decide) hactions))
    exact ⟨hdiv.clean, fun _ ↦ ⟨_, hdiv⟩⟩
  · have hhidden : TagLayout [{ name := "hidden" }] false "hidden" :=
      .bare (by decide) nofun .nil
    have hb := @OpenTagText.mk { name := "b", attributes := _ } _ (by decide) rfl
      (by rintro _ ⟨⟩; exact .inl (by decide))
      (TagLayout.blank (c := ' ') (by decide) (.blank (c := ' ') (by decide) hhidden))
    exact ⟨hb.clean, fun _ ↦ ⟨_, hb⟩⟩
  · have hblur : CleanDirective .output "<%= \"blur->end\" %>" :=
      .output " \"blur->end\" " ⟨by decide, by decide⟩
    have hactions : CleanValue '\'' "<%= \"blur->end\" %> x" :=
      .directive hblur (.char (by decide) (by decide) (.char (by decide) (by decide) .nil))
    have hi := @openTagText_render ⟨"i", [⟨"data-action", some _, '\''⟩], false, false⟩
      (by decide) rfl (List.forall_mem_singleton.2 (.valued (by decide) (by decide) hactions))
    exact ⟨hi.clean, fun _ ↦ ⟨_, hi⟩⟩

def panelComponent : Component := { name := "TodoList", snakeName := "todo_list", html := [] }

theorem bindsTokens_bindController_wiredPanel :
    panelComponent.controllerIdentifier = "todo-list" ∧
    BindsTokens panelComponent.controllerIdentifier wiredPanel
      (tokenize (bindController panelComponent (render wiredPanel))) ∧
    bindController panelComponent (bindController panelComponent (render wiredPanel)) =
      bindController panelComponent (render wiredPanel) :=
  ⟨by decide, bindsTokens_bindController panelComponent wiredPanel (by decide) regular_wiredPanel
    (by simp [wiredPanel, Token.Separate]) (by decide)⟩

end ViewForge.Template
