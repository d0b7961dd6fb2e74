import Mathlib.Data.List.Forall2
import ViewForge.Proofs.Erb.TagLayout
import ViewForge.Proofs.Markup.Attributes
import ViewForge.Template.Binding

namespace ViewForge.Template

open Text Erb Markup

section Words

def IsWord (w : Text) : Prop := w ≠ [] ∧ ∀ c ∈ w, isBlank c = false

theorem words_cons_blank {c : Char} (r : Text) (hc : isBlank c = true) :
    words (c :: r) = words r := by
  have hsplit := splitBy_append_cons (a := []) (p := isBlank) r nofun hc
  rw [words, ← List.nil_append (c :: r), hsplit]
  rfl

theorem words_append_blank {w : Text} {c : Char} (r : Text) (hw : IsWord w)
    (hc : isBlank c = true) : words (w ++ c :: r) = w :: words r := by
  rw [words, splitBy_append_cons r hw.2 hc, List.filter_cons_of_pos (by simpa using hw.1)]
  rfl

theorem words_of_isWord {w : Text} (hw : IsWord w) : words w = [w] := by
  rw [words, splitBy_of_none hw.2, List.filter_cons_of_pos (by simpa using hw.1)]
  rfl

theorem words_join {ws : List Text} (h : ∀ w ∈ ws, IsWord w) : words (join " " ws) = ws := by
  induction ws with
  | nil => rfl
  | cons w ws ih =>
    rw [List.forall_mem_cons] at h
    cases ws with
    | nil => rw [join, List.intercalate_singleton, words_of_isWord h.1]
    | cons v ws =>
      have hshape : join " " (w :: v :: ws) = w ++ ' ' :: join " " (v :: ws) := by
        simp [join, List.intercalate]
      rw [hshape, words_append_blank _ h.1 (by decide), ih h.2]

/-- Goes through a text from word to word. -/
theorem words_induction {P : Text → Prop} (nil : P [])
    (blank : ∀ c r, isBlank c = true → P r → P (c :: r)) (last : ∀ w, IsWord w → P w)
    (word : ∀ w c r, IsWord w → isBlank c = true → P r → P (w ++ c :: r)) (t : Text) : P t := by
  induction hn : t.length using Nat.strong_induction_on generalizing t with
  | _ n ih =>
    subst hn
    cases t with
    | nil => exact nil
    | cons c r =>
      cases hc : isBlank c with
      | true => exact blank c r hc (ih _ (by simp) r rfl)
      | false =>
        have hword : IsWord (c :: r.takeWhile (!isBlank ·)) := by
          refine ⟨List.cons_ne_nil _ _, List.forall_mem_cons.2 ⟨hc, fun d hd ↦ ?_⟩⟩
          simpa using List.mem_takeWhile_imp hd
        have hsplit : c :: r = (c :: r.takeWhile (!isBlank ·)) ++ r.dropWhile (!isBlank ·) := by
          simp [List.takeWhile_append_dropWhile]
        rw [hsplit]
        cases hrest : r.dropWhile (!isBlank ·) with
        | nil =>
          rw [List.append_nil]
          exact last _ hword
        | cons d s =>
          have hd : isBlank d = true := by
            have hhead := List.head?_dropWhile_not (!isBlank ·) r
            simpa [hrest] using hhead
          have hlen : s.length < (c :: r).length := by
            have hle := (List.dropWhile_suffix (l := r) (!isBlank ·)).length_le
            rw [hrest, List.length_cons] at hle
            rw [List.length_cons]
            omega
          exact word _ d s hword hd (ih _ hlen s rfl)

theorem isWord_of_mem_words {w t : Text} (h : w ∈ words t) : IsWord w := by
  induction t using words_induction with
  | nil => cases h
  | blank c r hc ih => exact ih (words_cons_blank r hc ▸ h)
  | last w' hw =>
    rw [words_of_isWord hw] at h
    exact List.mem_singleton.1 h ▸ hw
  | word w' c r hw hc ih =>
    rw [words_append_blank r hw hc] at h
    rcases List.mem_cons.1 h with rfl | h
    · exact hw
    · exact ih h

end Words

section Qualify

variable {identifier w : Text}

theorem isQuotable_qualify (hid : isQuotable identifier = true) (hw : isQuotable w = true) :
    isQuotable (qualify identifier w) = true := by
  rw [qualify]
  split
  next event handler hbreak =>
    split
    · exact hw
    · rw [breakOn_eq_some hbreak, isQuotable, List.all_append, List.all_append, Bool.and_eq_true,
        Bool.and_eq_true] at hw
      have hhead := isQuotable_append (isQuotable_append hw.1.1 (by decide : isQuotable "->")) hid
      exact isQuotable_append (isQuotable_append hhead (by decide : isQuotable "#")) hw.2
  next => exact hw

theorem qualify_ne_nil (hw : w ≠ []) : qualify identifier w ≠ [] := by
  rw [qualify]
  split
  · split
    · exact hw
    · simp
  · exact hw

end Qualify

def actionAttributes (ws : List Text) : List TagAttribute :=
  if ws.isEmpty then [] else [{ name := "data-action", value := some (join " " ws) }]

/-- An attribute other than that of the name `avoided`. -/
structure Plain (avoided : Text) (a : TagAttribute) : Prop where
  clean : CleanAttribute a
  quote : a.quote = '"'
  name : a.name ≠ avoided

structure Bears (tag : Tag) (ws : List Text) : Prop where
  isTagName : isTagName tag.name = true
  opening : tag.closing = false
  attributes : ∃ as, tag.attributes = as ++ actionAttributes ws ∧ ∀ a ∈ as, Plain "data-action" a
  words : ∀ w ∈ ws, w ≠ [] ∧ isQuotable w = true

theorem editValue_append (name : Text) (edit : Text → Text) {as : List TagAttribute}
    (bs : List TagAttribute) (h : ∀ a ∈ as, a.name ≠ name) :
    editValue name edit (as ++ bs) = as ++ editValue name edit bs := by
  induction as with
  | nil => rfl
  | cons a as ih =>
    rw [List.forall_mem_cons] at h
    simp [editValue, h.1, ih h.2]

theorem editValue_append_of_none (name : Text) (edit : Text → Text) (as : List TagAttribute)
    {bs : List TagAttribute} (h : ∀ b ∈ bs, b.name ≠ name) :
    editValue name edit (as ++ bs) = editValue name edit as ++ bs := by
  induction as with
  | nil =>
    induction bs with
    | nil => rfl
    | cons b bs ih =>
      rw [List.forall_mem_cons] at h
      simpa [editValue, h.1] using ih h.2
  | cons a as ih =>
    rw [List.cons_append, editValue, editValue]
    split
    · rfl
    · rw [ih]
      rfl

theorem forall_mem_editValue (name : Text) {edit : Text → Text} {P : TagAttribute → Prop}
    {as : List TagAttribute} (h : ∀ a ∈ as, P a)
    (hedit : ∀ a, P a → P { a with value := a.value.map edit }) :
    ∀ a ∈ editValue name edit as, P a := by
  induction as with
  | nil => exact nofun
  | cons a as ih =>
    rw [List.forall_mem_cons] at h
    rw [editValue]
    split
    · exact List.forall_mem_cons.2 ⟨hedit a h.1, h.2⟩
    · exact List.forall_mem_cons.2 ⟨h.1, ih h.2⟩

theorem name_actionAttributes {ws : List Text} :
    ∀ a ∈ actionAttributes ws, a.name = "data-action" := by
  intro a ha
  rw [actionAttributes] at ha
  split at ha
  · cases ha
  · rw [List.mem_singleton.1 ha]

namespace Bears

variable {tag : Tag} {ws : List Text}

theorem cleanValue (h : Bears tag ws) : CleanValue '"' (join " " ws) :=
  cleanValue_of_isQuotable (isQuotable_join " " (by decide) fun w hw ↦ (h.words w hw).2)

theorem openTagText (h : Bears tag ws) : OpenTagText tag tag.render := by
  obtain ⟨as, hattributes, has⟩ := h.attributes
  refine openTagText_render h.isTagName h.opening ?_
  rw [hattributes, List.forall_mem_append]
  refine ⟨fun a ha ↦ (has a ha).clean, fun a ha ↦ ?_⟩
  rw [actionAttributes] at ha
  split at ha
  · cases ha
  · rw [List.mem_singleton.1 ha]
    exact .valued (by decide) (by decide) h.cleanValue

/-- What is read as the actions of a tag are its actions. -/
theorem givenValue?_eq (h : Bears tag ws) :
    givenValue? tag "data-action" = if ws.isEmpty then none else some (join " " ws) := by
  obtain ⟨as, hattributes, has⟩ := h.attributes
  have hfind : as.find? (·.name == ("data-action" : Text)) = none := by
    rw [List.find?_eq_none]
    exact fun a ha heq ↦ (has a ha).name (beq_iff_eq.1 heq)
  rw [givenValue?, Tag.get?, hattributes, List.find?_append, hfind, Option.none_or,
    actionAttributes]
  cases ws with
  | nil => rfl
  | cons w ws =>
    obtain ⟨c, r, hw⟩ := List.exists_cons_of_ne_nil (h.words w List.mem_cons_self).1
    have hjoin : ∃ s, join " " (w :: ws) = c :: s := by
      cases ws with
      | nil => exact ⟨r, by rw [join, List.intercalate_singleton, hw]⟩
      | cons v ws => exact ⟨_, by rw [join, List.intercalate_cons_cons, hw]; rfl⟩
    obtain ⟨s, hs⟩ := hjoin
    simp only [hs]
    rfl

section Bind

variable {identifier : Text} (hid : isQuotable identifier = true)

include hid

theorem bindActions (h : Bears tag ws) (hws : ∀ w ∈ ws, IsWord w) (hne : ws ≠ []) :
    Bears (bindActions identifier tag) (ws.map (qualify identifier)) := by
  obtain ⟨as, hattributes, has⟩ := h.attributes
  refine ⟨h.isTagName, h.opening, ⟨as, ?_, has⟩, List.forall_mem_map.2 fun w hw ↦ ?_⟩
  · have hempty : ws.isEmpty = false := by simpa using hne
    rw [Template.bindActions, hattributes, editValue_append _ _ _ fun a ha ↦ (has a ha).name,
      actionAttributes, actionAttributes, List.isEmpty_map, hempty]
    simp only [Bool.false_eq_true, if_false, editValue, beq_self_eq_true, if_true, Option.map_some,
      words_join hws]
  · obtain ⟨hne, hquotable⟩ := h.words w hw
    exact ⟨qualify_ne_nil hne, isQuotable_qualify hid hquotable⟩

theorem plain_extended {a : TagAttribute} (h : Plain "data-action" a) :
    Plain "data-action" { a with value := a.value.map (· ++ ' ' :: identifier) } := by
  obtain ⟨hclean, hquote, hname⟩ := h
  refine ⟨?_, hquote, hname⟩
  cases hclean with
  | bare hn => exact .bare hn
  | directive hd => exact .directive hd
  | valued hn hq hv =>
    cases hquote
    have hextra := isQuotable_append (t := [' ']) (by decide) hid
    exact .valued hn hq (hv.append_cons (by decide) (cleanValue_of_isQuotable hextra))

theorem bindRoot (h : Bears tag ws) : Bears (bindRoot identifier tag) ws := by
  obtain ⟨as, hattributes, has⟩ := h.attributes
  rw [Template.bindRoot]
  split
  next v hv =>
    split
    · exact h
    · have hplain := forall_mem_editValue "data-controller" has fun _ ↦ plain_extended hid
      refine ⟨h.isTagName, h.opening, ⟨_, ?_, hplain⟩, h.words⟩
      rw [hattributes]
      refine editValue_append_of_none _ _ as fun a ha ↦ ?_
      rw [name_actionAttributes a ha]
      decide
  next =>
    have hplain : Plain "data-action" { name := "data-controller", value := some identifier } :=
      ⟨.valued (by decide) (by decide) (cleanValue_of_isQuotable hid), rfl,
        (by decide : ("data-controller" : Text) ≠ "data-action")⟩
    refine ⟨h.isTagName, h.opening, ⟨_ :: as, ?_, List.forall_mem_cons.2 ⟨hplain, has⟩⟩, h.words⟩
    rw [Tag.insert, hattributes]
    rfl

end Bind

end Bears

def Carries (ws : List Text) (k : Token) : Prop :=
  ∃ tag, Bears tag ws ∧ k.kind = .openTag ∧ OpenTagText tag k.text

theorem Bears.carries {tag : Tag} {ws : List Text} (h : Bears tag ws) :
    Carries ws ⟨.openTag, tag.render⟩ := ⟨tag, h, rfl, h.openTagText⟩

theorem Carries.loose {ws : List Text} {k : Token} (h : Carries ws k) : k.Loose := by
  obtain ⟨tag, -, hkind, htext⟩ := h
  obtain ⟨kind, text⟩ := k
  cases hkind
  exact htext.clean

theorem Carries.isOpenTag {ws : List Text} {k : Token} (h : Carries ws k) :
    isOpenTag k = true := by
  obtain ⟨tag, -, hkind, -⟩ := h
  rw [Template.isOpenTag, hkind]
  rfl

section Bind

variable {identifier : Text} (hid : isQuotable identifier = true)

include hid

/-- Binding one tag names the controller in its actions. -/
theorem bindTokens_carries {ws : List Text} {k : Token} (pending : Bool) (rest : List Token)
    (h : Carries ws k) (hws : ∀ w ∈ ws, IsWord w) :
    ∃ k', Carries (ws.map (qualify identifier)) k' ∧
      bindTokens identifier pending (k :: rest) = k' :: bindTokens identifier false rest := by
  have hcarries := h
  obtain ⟨tag, htag, hkind, htext⟩ := h
  have hopen := hcarries.isOpenTag
  have hunfold : bindTokens identifier pending (k :: rest) =
      (let hasAction := (givenValue? tag "data-action").isSome
       let bound := if hasAction then bindActions identifier tag else tag
       if pending then ⟨.openTag, (bindRoot identifier bound).render⟩
       else if hasAction then ⟨.openTag, bound.render⟩ else k) ::
        bindTokens identifier false rest := by
    rw [bindTokens, if_pos hopen]
    simp only [htext.parseTag_eq]
  rw [hunfold, htag.givenValue?_eq]
  cases ws with
  | nil =>
    cases pending with
    | true => exact ⟨_, (htag.bindRoot hid).carries, rfl⟩
    | false => exact ⟨k, hcarries, rfl⟩
  | cons w ws =>
    have hbound := htag.bindActions hid hws (List.cons_ne_nil w ws)
    cases pending with
    | true => exact ⟨_, (hbound.bindRoot hid).carries, rfl⟩
    | false => exact ⟨_, hbound.carries, rfl⟩

/-- Binding a run of tokens names the controller in the actions of every tag. -/
theorem carries_bindTokens {ts : List Token} {wss : List (List Text)} (pending : Bool)
    (hloose : ∀ k ∈ ts, k.Loose) (h : List.Forall₂ Carries wss (ts.filter isOpenTag))
    (hwords : ∀ ws ∈ wss, ∀ w ∈ ws, IsWord w) :
    (∀ k ∈ bindTokens identifier pending ts, k.Loose) ∧
      List.Forall₂ Carries (wss.map (·.map (qualify identifier)))
        ((bindTokens identifier pending ts).filter isOpenTag) := by
  induction ts generalizing pending wss with
  | nil =>
    cases h
    exact ⟨nofun, .nil⟩
  | cons k ts ih =>
    rw [List.forall_mem_cons] at hloose
    by_cases hopen : isOpenTag k = true
    · rw [List.filter_cons_of_pos hopen] at h
      obtain ⟨ws, wss, hk, hts, rfl⟩ := List.forall₂_cons_right_iff.1 h
      rw [List.forall_mem_cons] at hwords
      obtain ⟨k', hk', heq⟩ := bindTokens_carries hid pending ts hk hwords.1
      obtain ⟨hloose', hcarries⟩ := ih false hloose.2 hts hwords.2
      rw [heq]
      refine ⟨List.forall_mem_cons.2 ⟨hk'.loose, hloose'⟩, ?_⟩
      rw [List.filter_cons_of_pos hk'.isOpenTag]
      exact .cons hk' hcarries
    · rw [List.filter_cons_of_neg hopen] at h
      obtain ⟨hloose', hcarries⟩ := ih pending hloose.2 h hwords
      rw [bindTokens, if_neg hopen]
      refine ⟨List.forall_mem_cons.2 ⟨hloose.1, hloose'⟩, ?_⟩
      rwa [List.filter_cons_of_neg hopen]

end Bind

def Binds (template : Text) (wss : List (List Text)) : Prop :=
  ∃ ts, template = render ts ∧ (∀ k ∈ ts, k.Loose) ∧
    List.Forall₂ Carries wss (ts.filter isOpenTag)

/-- The actions of a template as they stand in its tags; tags without any are passed over. -/
def actionValues (template : Text) : List Text :=
  ((tokenize template).filter isOpenTag).filterMap fun k ↦
    givenValue? (parseTag k.text) "data-action"

theorem filterMap_givenValue? {wss : List (List Text)} {ks : List Token}
    (h : List.Forall₂ Carries wss ks) :
    ks.filterMap (fun k ↦ givenValue? (parseTag k.text) "data-action") =
      (wss.filter (!·.isEmpty)).map (join " ") := by
  induction h with
  | nil => rfl
  | @cons ws k wss ks hk _ ih =>
    obtain ⟨tag, htag, -, htext⟩ := hk
    rw [List.filterMap_cons, htext.parseTag_eq, htag.givenValue?_eq, ih]
    cases ws <;> rfl

namespace Binds

variable {template : Text} {wss : List (List Text)}

theorem filter_tokenize (h : Binds template wss) :
    List.Forall₂ Carries wss ((tokenize template).filter isOpenTag) := by
  obtain ⟨ts, rfl, hloose, hcarries⟩ := h
  rwa [tokenize_render_of_loose hloose, joinTexts_filter fun _ ↦ rfl]

theorem actionValues_eq (h : Binds template wss) :
    actionValues template = (wss.filter (!·.isEmpty)).map (join " ") :=
  filterMap_givenValue? h.filter_tokenize

/-- Without a tag a warning is put before the template. -/
theorem bindController_of_none {c : Component} (h : Binds template wss)
    (hnone : (tokenize template).any isOpenTag = false) :
    wss = [] ∧ Binds (bindController c template) [] := by
  have hfilter : (tokenize template).filter isOpenTag = [] := by
    rw [List.filter_eq_nil_iff]
    exact fun k hk ↦ List.any_eq_false.1 hnone k hk
  have htags := h.filter_tokenize
  rw [hfilter] at htags
  have hwss := List.forall₂_nil_right_iff.1 htags
  obtain ⟨ts, rfl, hloose, hcarries⟩ := h
  refine ⟨hwss, ⟨.comment, controllerWarning⟩ :: ⟨.text, "\n"⟩ :: ts, ?_, ?_, ?_⟩
  · rw [bindController]
    simp only [hnone, Bool.false_eq_true, if_false]
    simp [render]
  · have hwarning : Token.Clean ⟨.comment, controllerWarning⟩ := by
      have hshape : controllerWarning = "<%#" ++
          (" WARNING: Could not add Stimulus controller to root element " : Text) ++ "%>" := by
        decide
      rw [hshape]
      exact .directive (.comment _ (by decide))
    have hbreak : Token.Loose ⟨.text, "\n"⟩ := (by decide : '<' ∉ ("\n" : Text))
    exact List.forall_mem_cons.2 ⟨hwarning, List.forall_mem_cons.2 ⟨hbreak, hloose⟩⟩
  · rw [← hwss]
    exact hcarries

/-- Binding a controller names it in every action. -/
theorem bindController {c : Component} (h : Binds template wss)
    (hid : isQuotable c.controllerIdentifier = true) (hwords : ∀ ws ∈ wss, ∀ w ∈ ws, IsWord w) :
    Binds (bindController c template) (wss.map (·.map (qualify c.controllerIdentifier))) := by
  cases hany : (tokenize template).any isOpenTag with
  | false =>
    obtain ⟨rfl, hbinds⟩ := h.bindController_of_none (c := c) hany
    exact hbinds
  | true =>
    obtain ⟨ts, rfl, hloose, hcarries⟩ := h
    have htokens := tokenize_render_of_loose hloose
    have hjoined : ∀ k ∈ joinTexts ts, k.Loose := fun k hk ↦ (loose_joinTexts hloose k hk).1
    rw [← joinTexts_filter (fun _ ↦ rfl)] at hcarries
    obtain ⟨hloose', hbound⟩ := carries_bindTokens hid true hjoined hcarries hwords
    refine ⟨_, ?_, hloose', hbound⟩
    rw [Template.bindController]
    simp only [hany, if_true]
    rw [htokens]

end Binds

end ViewForge.Template
