import Mathlib.Data.List.Count
import ViewForge.Markup.Render
import ViewForge.Proofs.Script.Unescaping
import ViewForge.Proofs.Text.References

namespace ViewForge.Markup

open Text Script

def childEscapes : List (Char × Char) := [('\'', '\''), ('"', '"'), ('n', '\n')]

def literalBody (source : Text) : Text := (source.drop 1).dropLast

section Child

theorem unquotedFrom_eq (t : Text) : unquotedFrom t = unescapeBy (childEscapes.lookup ·) t :=
  foldl_replace_eq childEscapes (by decide) (by decide) t

theorem childEscapes_sound : Sound (childEscapes.lookup ·) := by
  refine sound_lookup fun p hp ↦ ?_
  simp only [childEscapes, List.mem_cons, List.not_mem_nil, or_false] at hp
  rcases hp with rfl | rfl | rfl <;> exact ⟨by decide, by decide, fun r ↦ rfl⟩

end Child

section Attribute

variable {δ : Delimiter} {t : Text} {v : List Nat}

theorem count_codeUnits (c : Char) :
    (codeUnits c.toNat).count 92 = if c = '\\' then 1 else 0 := by
  by_cases hc : c = '\\'
  · rw [if_pos hc, hc]
    rfl
  · rw [if_neg hc, List.count_eq_zero]
    intro hmem
    have hunits : codeUnits c.toNat = codeUnits ('\\' : Char).toNat := codeUnits_of_mem_slash hmem
    exact hc (codeUnits_append_inj (a := []) (b := []) (congrArg (· ++ []) hunits)).1

theorem count_units (t : Text) : (units t).count 92 = t.count '\\' := by
  induction t with
  | nil => rfl
  | cons c t ih =>
    rw [units_cons, List.count_append, count_codeUnits, ih, List.count_cons]
    simp only [beq_iff_eq]
    omega

/-- A text that means as many backslashes as it has, seen from the last of them. -/
structure LastSlash (t : Text) (v : List Nat) (before digits after : Text) (read : List Nat) :
    Prop where
  text : t = before ++ '\\' :: (digits ++ after)
  meaning : v = read ++ 92 :: units after
  digits_ne_nil : digits ≠ []
  digits_reference : '&' ∉ digits
  last : '\\' ∉ digits ++ after

theorem LastSlash.append {before digits after : Text} {read : List Nat}
    (h : LastSlash t v before digits after read) (s : Text) (u : List Nat) :
    LastSlash (s ++ t) (u ++ v) (s ++ before) digits after (u ++ read) where
  text := by rw [h.text, List.append_assoc]
  meaning := by rw [h.meaning, List.append_assoc]
  digits_ne_nil := h.digits_ne_nil
  digits_reference := h.digits_reference
  last := h.last

/-- Every backslash that a text means takes one of its own; where none is lost, the last one begins
an escape in digits, and all behind it stands for itself. -/
theorem count_slash_meaning (hδ : δ ≠ .backtick) (h : meaning? δ t = some v) :
    v.count 92 ≤ t.count '\\' ∧ (v.count 92 = t.count '\\' → '\\' ∈ t →
      ∃ before digits after read, LastSlash t v before digits after read) := by
  refine meaning?_induction (P := fun t v ↦ v.count 92 ≤ t.count '\\' ∧
    (v.count 92 = t.count '\\' → '\\' ∈ t →
      ∃ before digits after read, LastSlash t v before digits after read))
    ?nil ?plain ?lineEnd ?escape h
  case nil => exact ⟨Nat.le_refl 0, fun _ h ↦ absurd h List.not_mem_nil⟩
  case plain =>
    intro c r v hc _ _ ih
    rw [List.count_append, count_codeUnits, if_neg hc, Nat.zero_add, List.count_cons_of_ne hc]
    refine ⟨ih.1, fun hcount hmem ↦ ?_⟩
    have hmem : '\\' ∈ r := (List.mem_cons.1 hmem).resolve_left (Ne.symm hc)
    obtain ⟨before, digits, after, read, hlast⟩ := ih.2 hcount hmem
    exact ⟨_, _, _, _, hlast.append [c] (codeUnits c.toNat)⟩
  case lineEnd =>
    intro r u v hbacktick
    exact absurd hbacktick hδ
  case escape =>
    intro w s u v hw _ hs ih
    have hu : u.count 92 ≤ 1 := by
      by_cases hmem : 92 ∈ u
      · rw [(hw.slash hmem).1]
        decide
      · rw [List.count_eq_zero_of_not_mem hmem]
        decide
    rw [List.count_append, List.cons_append, List.count_cons_self, List.count_append]
    refine ⟨by omega, fun hcount _ ↦ ?_⟩
    have hslash : '\\' ∉ w := List.count_eq_zero.1 (by omega)
    have hmem : 92 ∈ u := List.count_pos_iff.1 (by omega)
    obtain ⟨rfl, hamp⟩ := hw.slash hmem
    by_cases hlater : '\\' ∈ s
    · obtain ⟨before, digits, after, read, hlast⟩ := ih.2 (by omega) hlater
      exact ⟨_, _, _, _, hlast.append ('\\' :: w) [92]⟩
    · refine ⟨[], w, s, [], rfl, ?_, ?_, hamp, ?_⟩
      · rw [units_of_not_mem_slash hδ hs hlater]
        rfl
      · obtain ⟨c, w, rfl, -⟩ := hw.head
        exact List.cons_ne_nil c w
      · rw [List.mem_append, not_or]
        exact ⟨hslash, hlater⟩

theorem eq_of_append_cons_eq {α : Type} {a : α} {x y p q : List α} (hp : a ∉ p) (hq : a ∉ q)
    (h : x ++ a :: p = y ++ a :: q) : p = q := by
  rcases List.append_eq_append_iff.1 h with ⟨c, -, hc⟩ | ⟨c, -, hc⟩
  · cases c with
    | nil => exact (List.cons.inj hc).2
    | cons b c => exact absurd (by rw [(List.cons.inj hc).2]; simp) hp
  · cases c with
    | nil => exact (List.cons.inj hc).2.symm
    | cons b c => exact absurd (by rw [(List.cons.inj hc).2]; simp) hq

/-- No text grows by reading its references into itself behind something. -/
theorem append_unescape_ne {s : Text} (hs : s ≠ []) (hamp : '&' ∉ s) (p : Text) :
    s ++ unescape p ≠ p := by
  induction hn : p.length using Nat.strong_induction_on generalizing p with
  | _ n ih =>
    subst hn
    intro hp
    have hself : s ++ unescape (unescape p) = unescape p := by
      rw [← unescape_append_of_not_mem hamp, hp]
    have hshort : (unescape p).length < p.length := by
      have hpos := List.length_pos_iff.2 hs
      have hlength := congrArg List.length hp
      rw [List.length_append] at hlength
      omega
    exact ih _ hshort (unescape p) rfl hself

theorem LastSlash.units_unescape_ne {before digits after : Text} {read : List Nat}
    (h : LastSlash t v before digits after read) (hcount : v.count 92 = t.count '\\') :
    units (unescape t) ≠ v := by
  intro hv
  have hread : unescape t = unescape before ++ '\\' :: (digits ++ unescape after) := by
    rw [h.text, unescape_append_slash, unescape_append_of_not_mem h.digits_reference]
  -- References before the last backslash keep all of theirs, so that none is left behind it.
  have hbehind : '\\' ∉ digits ++ unescape after := by
    have hkept := count_slash_le_unescape before
    have htotal : (unescape t).count '\\' = t.count '\\' := by rw [← count_units, hv, hcount]
    rw [hread, h.text, List.count_append, List.count_append, List.count_cons_self,
      List.count_cons_self, List.count_eq_zero_of_not_mem h.last] at htotal
    exact List.count_eq_zero.1 (by omega)
  have hends : units (digits ++ unescape after) = units after := by
    have hnone {s : Text} (hs : '\\' ∉ s) : 92 ∉ units s := by
      rw [← List.count_eq_zero, count_units, List.count_eq_zero_of_not_mem hs]
    rw [hread, h.meaning, units_append] at hv
    exact eq_of_append_cons_eq (hnone hbehind)
      (hnone fun hs ↦ h.last (List.mem_append_right digits hs)) hv
  exact append_unescape_ne h.digits_ne_nil h.digits_reference after (units_injective hends)

/-- An attribute shows what its literal means just if there is neither an escape nor a reference
in it. -/
theorem units_unescape_eq_iff (hδ : δ ≠ .backtick) (h : meaning? δ t = some v) :
    units (unescape t) = v ↔ '\\' ∉ t ∧ unescape t = t := by
  refine ⟨fun hv ↦ ?_, fun ⟨hslash, ht⟩ ↦ by rw [ht, units_of_not_mem_slash hδ h hslash]⟩
  have hslash : '\\' ∉ t := by
    intro hmem
    obtain ⟨hle, hlast⟩ := count_slash_meaning hδ h
    have hcount : v.count 92 = t.count '\\' := by
      have hkept := count_slash_le_unescape t
      rw [← count_units (unescape t), hv] at hkept
      exact Nat.le_antisymm hle hkept
    obtain ⟨before, digits, after, read, hlast⟩ := hlast hcount hmem
    exact hlast.units_unescape_ne hcount hv
  exact ⟨hslash, units_injective (hv.trans (units_of_not_mem_slash hδ h hslash))⟩

end Attribute

theorem exists_meaning?_of_stringMeaning? {source : Text} {v : List Nat}
    (h : stringMeaning? source = some v) :
    ∃ δ, δ ≠ .backtick ∧ meaning? δ (literalBody source) = some v := by
  have hbody {δ : Delimiter} (h : literalMeaning? δ source = some v) :
      meaning? δ (literalBody source) = some v := by
    cases source with
    | nil => cases h
    | cons c r =>
      rw [literalMeaning?] at h
      split at h
      · exact h
      · cases h
  rw [stringMeaning?, Option.or_eq_some_iff] at h
  rcases h with h | ⟨-, h⟩
  · exact ⟨.apostrophe, by decide, hbody h⟩
  · exact ⟨.quotation, by decide, hbody h⟩

/-- A string literal between tags shows its string just if its escapes are those replaced there; in
an attribute of a native element, just if it has neither an escape nor a reference. -/
theorem stringLiteral_shown_iff {source : Text} {v : List Nat} (h : stringMeaning? source = some v)
    (name : Text) (hkept : isAmong name droppedAttributes = false)
    (hvalue : isEventName name = false) (scope : Scope) (refs : List Ref) :
    ∃ child value,
      (Node.container (some (.literal source refs .string))).render scope = { html := child } ∧
      (∀ r, renderAttribute scope false r
          (.named name (some (.expression (some (.literal source refs .string))))) =
        { r with parts := r.parts ++ quotedAttribute (attributeName name) value }) ∧
      (units (unescape child) = v ↔ isMeantBy (childEscapes.lookup ·) (literalBody source) = true) ∧
      (units (unescape value) = v ↔
        '\\' ∉ literalBody source ∧ unescape (literalBody source) = literalBody source) := by
  obtain ⟨δ, hδ, hmeaning⟩ := exists_meaning?_of_stringMeaning? h
  refine ⟨Text.escape (unquoted source), attributeText (literalBody source), ?_, fun r ↦ ?_, ?_, ?_⟩
  · rw [Node.render, Expr.render]
    rfl
  · rw [renderAttribute, hkept, hvalue]
    rfl
  · have hbody : unquoted source = unescapeBy (childEscapes.lookup ·) (literalBody source) :=
      unquotedFrom_eq (literalBody source)
    rw [unescape_escape, hbody]
    exact childEscapes_sound.units_unescapeBy_eq_iff hmeaning
  · rw [unescape_attributeText]
    exact units_unescape_eq_iff hδ hmeaning

theorem attributeName_title : attributeName "title" = "title" := by decide +kernel

/-- An escaped quote is shown between tags as meant, and in an attribute with its backslash. -/
theorem stringLiteral_shown_iff_escapedQuote :
    ∃ child value,
      (Node.container (some (.literal "'it\\'s'" [] .string))).render { props := [] } =
        { html := child } ∧
      renderAttribute { props := [] } false {}
          (.named "title" (some (.expression (some (.literal "'it\\'s'" [] .string))))) =
        { parts := quotedAttribute "title" value } ∧
      units (unescape child) = units "it's" ∧ units (unescape value) ≠ units "it's" := by
  have hmeaning : stringMeaning? "'it\\'s'" = some (units "it's") := by decide
  obtain ⟨child, value, hchild, hvalue, hshown, hkept⟩ :=
    stringLiteral_shown_iff hmeaning "title" (by decide) (by decide) { props := [] } []
  rw [attributeName_title] at hvalue
  refine ⟨child, value, hchild, hvalue {}, hshown.2 (by decide), fun h ↦ ?_⟩
  exact absurd (hkept.1 h).1 (by decide)

/-- A reference and a tab, each spelled out: neither place shows what the literal means, and the two
do not agree. -/
theorem stringLiteral_misread_tab :
    stringMeaning? "'&lt;\\t'" = some (units "&lt;\t") ∧
    (Node.container (some (.literal "'&lt;\\t'" [] .string))).render { props := [] } =
      { html := "&amp;lt;\\t" } ∧
    renderAttribute { props := [] } false {}
        (.named "title" (some (.expression (some (.literal "'&lt;\\t'" [] .string))))) =
      { parts := quotedAttribute "title" "&lt;\\t" } ∧
    unescape "&amp;lt;\\t" = "&lt;\\t" ∧ unescape "&lt;\\t" = "<\\t" := by
  have hkept : isAmong "title" droppedAttributes = false := by decide
  have hvalue : isEventName "title" = false := by decide
  refine ⟨by decide, ?_, ?_, by decide +kernel, by decide +kernel⟩
  · rw [Node.render, Expr.render]
    rfl
  · rw [renderAttribute, hkept, hvalue, attributeName_title]
    rfl

end ViewForge.Markup
