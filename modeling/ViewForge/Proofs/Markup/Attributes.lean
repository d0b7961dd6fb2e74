import ViewForge.Proofs.Markup.Block
import ViewForge.Proofs.Text.Splitting

namespace ViewForge.Markup

open Text Erb

def isMarkupName : Text → Bool
  | [] => false
  | c :: r => isAsciiLetter c && r.all isMarkupNamePart

/-- Text that may stand between double quotes, such as a numeral or an identifier. -/
def isQuotable (t : Text) : Bool := t.all fun c ↦ c != '"' && c != '<'

section Name

theorem isAsciiLower_ofNat :
    ∀ n : Fin 91, 65 ≤ n.val → isAsciiLower (Char.ofNat (n + 32)) = true := by
  decide

theorem isAsciiLetter_lowerChar {c : Char} (h : isAsciiLetter c = true) :
    isAsciiLetter (lowerChar c) = true := by
  have hc := toNat_of_isAsciiLetter h
  by_cases hu : isAsciiUpper c = true
  · rw [lowerChar, if_pos hu]
    simp only [isAsciiUpper, Bool.and_eq_true, decide_eq_true_eq, Char.le_def,
      UInt32.le_iff_toNat_le] at hu
    have hlower := isAsciiLower_ofNat ⟨c.toNat, Nat.lt_succ_of_le hu.2⟩ hc.1
    rw [isAsciiLetter, hlower, Bool.or_true]
  · rw [lowerChar, if_neg hu, if_pos (by omega)]
    exact h

theorem isMarkupNamePart_lowerChar {c : Char} (h : isMarkupNamePart c = true) :
    isMarkupNamePart (lowerChar c) = true := by
  by_cases hl : isAsciiLetter c = true
  · simp [isMarkupNamePart, isAsciiLetter_lowerChar hl]
  · have hu : ¬isAsciiUpper c = true := fun hu ↦ hl (by simp [isAsciiLetter, hu])
    have hc := toNat_of_isMarkupNamePart h
    rw [lowerChar, if_neg hu, if_pos (by omega)]
    exact h

theorem lowerFrom_eq_map {t : Text} (inWord : Bool) (h : t.all isMarkupNamePart = true) :
    lowerFrom inWord t = t.map lowerChar := by
  induction t generalizing inWord with
  | nil => rfl
  | cons c t ih =>
    rw [List.all_cons, Bool.and_eq_true] at h
    have hsigma : (c == 'Σ') = false := by
      rw [beq_eq_false_iff_ne]
      rintro rfl
      exact absurd h.1 (by decide)
    have hdot : (c == 'İ') = false := by
      rw [beq_eq_false_iff_ne]
      rintro rfl
      exact absurd h.1 (by decide)
    simp only [lowerFrom, hsigma, hdot, ih _ h.2, List.map_cons, Bool.false_eq_true, if_false]

theorem lower_eq_map {t : Text} (h : t.all isMarkupNamePart = true) :
    lower t = t.map lowerChar := lowerFrom_eq_map false h

theorem all_isMarkupNamePart_lower {t : Text} (h : t.all isMarkupNamePart = true) :
    (lower t).all isMarkupNamePart = true := by
  rw [lower_eq_map h, List.all_map, List.all_eq_true]
  exact fun c hc ↦ isMarkupNamePart_lowerChar (List.all_eq_true.1 h c hc)

theorem all_of_isMarkupName {t : Text} (h : isMarkupName t = true) :
    t.all isMarkupNamePart = true := by
  cases t with
  | nil => rfl
  | cons c r =>
    rw [isMarkupName, Bool.and_eq_true] at h
    rw [List.all_cons, isMarkupNamePart, h.1, h.2]
    rfl

theorem isMarkupName_lower {t : Text} (h : isMarkupName t = true) :
    isMarkupName (lower t) = true := by
  have hlower := all_isMarkupNamePart_lower (all_of_isMarkupName h)
  rw [lower_eq_map (all_of_isMarkupName h)] at hlower ⊢
  cases t with
  | nil => cases h
  | cons c r =>
    rw [isMarkupName, Bool.and_eq_true] at h
    rw [List.map_cons, List.all_cons, Bool.and_eq_true] at hlower
    rw [List.map_cons, isMarkupName, isAsciiLetter_lowerChar h.1, hlower.2]
    rfl

theorem isTagName_of_isMarkupName {t : Text} (h : isMarkupName t = true) : isTagName t = true := by
  cases t with
  | nil => cases h
  | cons c r =>
    rw [isMarkupName, Bool.and_eq_true] at h
    rw [isTagName, Bool.and_eq_true, List.all_eq_true]
    exact ⟨h.1, fun d hd ↦ isNameSymbol_of_isMarkupNamePart (List.all_eq_true.1 h.2 d hd)⟩

theorem isMarkupName_resolveTag {tag : Text} (h : (splitOn '.' tag).all isMarkupName = true) :
    isMarkupName (resolveTag tag).1 = true ∧
      ∀ name ∈ (resolveTag tag).2, isMarkupName name = true := by
  have hfinal : isMarkupName ((splitOn '.' tag).getLastD []) = true := by
    have hne : splitOn '.' tag ≠ [] := splitBy_ne_nil _ tag
    rw [List.getLastD_eq_getLast?, List.getLast?_eq_some_getLast hne, Option.getD_some]
    exact List.all_eq_true.1 h _ (List.getLast_mem hne)
  simp only [resolveTag]
  split
  next =>
    refine ⟨isMarkupName_lower hfinal, fun name hname ↦ ?_⟩
    split at hname
    · cases hname
    · cases hname
      exact hfinal
  next hdot =>
    refine ⟨?_, nofun⟩
    have hsplit : splitOn '.' tag = [tag] := by
      refine splitBy_of_none fun c hc ↦ ?_
      rw [beq_eq_false_iff_ne]
      rintro rfl
      exact hdot (by simp [hc])
    simpa [hsplit] using h

/-- Whatever lower case and the two separators keep to is kept. -/
theorem all_kebabCase {p : Char → Bool} {t : Text}
    (hlower : ∀ u : Text, u.all p = true → (lower u).all p = true) (hline : p '_' = true)
    (hdash : p '-' = true) (h : t.all p = true) : (Naming.kebabCase t).all p = true := by
  have hsnake : (Naming.snakeCase t).all p = true := by
    refine hlower _ (List.all_eq_true.2 fun c hc ↦ ?_)
    obtain ⟨d, hd, hc⟩ := List.mem_flatMap.1 ((List.dropWhile_sublist _).mem hc)
    split at hc
    · rcases List.mem_cons.1 hc with rfl | hc
      · exact hline
      · exact List.mem_singleton.1 hc ▸ List.all_eq_true.1 h d hd
    · exact List.mem_singleton.1 hc ▸ List.all_eq_true.1 h d hd
  rw [Naming.kebabCase, List.all_map, List.all_eq_true]
  intro c hc
  rw [Function.comp_apply]
  split
  · exact hdash
  · exact List.all_eq_true.1 hsnake c hc

theorem all_isMarkupNamePart_kebabCase {t : Text} (h : t.all isMarkupNamePart = true) :
    (Naming.kebabCase t).all isMarkupNamePart = true :=
  all_kebabCase (fun _ ↦ all_isMarkupNamePart_lower) (by decide) (by decide) h

theorem all_renamedAttributes :
    (renamedAttributes.all fun e ↦ e.2.toList.all isMarkupNamePart) = true := by decide

theorem all_isMarkupNamePart_attributeName {name : Text} (h : name.all isMarkupNamePart = true) :
    (attributeName name).all isMarkupNamePart = true := by
  unfold attributeName
  split
  next old new hfind =>
    exact List.all_eq_true.1 all_renamedAttributes (old, new) (List.mem_of_find?_eq_some hfind)
  next =>
    split
    · exact all_isMarkupNamePart_lower h
    · split
      · exact h
      · exact all_isMarkupNamePart_kebabCase h

def spelling (isComponent : Bool) (name : Text) : Text :=
  if isComponent then name else attributeName name

theorem all_isMarkupNamePart_spelling (isComponent : Bool) {name : Text}
    (h : isMarkupName name = true) : (spelling isComponent name).all isMarkupNamePart = true := by
  rw [spelling]
  split
  · exact all_of_isMarkupName h
  · exact all_isMarkupNamePart_attributeName (all_of_isMarkupName h)

end Name

section Quotable

variable {t u : Text}

theorem isQuotable_append (ht : isQuotable t = true) (hu : isQuotable u = true) :
    isQuotable (t ++ u) = true := by
  rw [isQuotable, List.all_append, Bool.and_eq_true]
  exact ⟨ht, hu⟩

theorem isQuotable_join {ts : List Text} (sep : Text) (hsep : isQuotable sep = true)
    (h : ∀ t ∈ ts, isQuotable t = true) : isQuotable (join sep ts) = true := by
  induction ts with
  | nil => rfl
  | cons t ts ih =>
    rw [List.forall_mem_cons] at h
    cases ts with
    | nil =>
      rw [join, List.intercalate_singleton]
      exact h.1
    | cons u ts =>
      rw [join, List.intercalate_cons_cons]
      exact isQuotable_append (isQuotable_append h.1 hsep) (ih h.2)

theorem isQuotable_of_all_isMarkupNamePart (h : t.all isMarkupNamePart = true) :
    isQuotable t = true := by
  rw [isQuotable, List.all_eq_true] at *
  intro c hc
  have hsymbol := isNameSymbol_of_isMarkupNamePart (h c hc)
  simp only [isNameSymbol, isQuote, Bool.and_eq_true, Bool.not_eq_true', Bool.or_eq_false_iff,
    beq_eq_false_iff_ne] at hsymbol
  rw [Bool.and_eq_true, bne_iff_ne]
  exact ⟨hsymbol.1.2.1, hsymbol.2⟩

theorem isQuotable_escapeAttributeChar (c : Char) : isQuotable (escapeAttributeChar c) = true := by
  unfold escapeAttributeChar escapeChar
  split
  · decide
  next hquote =>
    split
    · decide
    · split
      · decide
      next hlt =>
        split
        · decide
        · simp only [beq_iff_eq] at hquote hlt
          simp [isQuotable, hquote, hlt]

/-- Whatever the value, escaping leaves no quote and no `<` in it. -/
theorem isQuotable_attributeText (t : Text) : isQuotable (attributeText t) = true := by
  rw [attributeText, isQuotable, List.all_flatMap, List.all_eq_true]
  exact fun c _ ↦ isQuotable_escapeAttributeChar c

theorem cleanValue_of_isQuotable (h : isQuotable t = true) : CleanValue '"' t := by
  induction t with
  | nil => exact .nil
  | cons c t ih =>
    rw [isQuotable, List.all_cons, Bool.and_eq_true, Bool.and_eq_true, bne_iff_ne, bne_iff_ne] at h
    exact .char h.1.1 (not_startsDirective_of_ne t h.1.2) (ih h.2)

theorem cleanValue_output {code : Text} (h : CleanCode code) :
    CleanValue '"' (outputDirective code) := by
  have hvalue := CleanValue.directive (q := '"') (cleanDirective_output h) .nil
  rwa [List.append_nil] at hvalue

end Quotable

section TagAttributes

variable {name : Text} (hn : name.all isMarkupNamePart = true)

include hn

theorem all_isNameSymbol : name.all isNameSymbol = true :=
  List.all_eq_true.2 fun c hc ↦ isNameSymbol_of_isMarkupNamePart (List.all_eq_true.1 hn c hc)

theorem tagAttributes_bare : TagAttributes (' ' :: name) where
  body r h := .blank ' ' (by decide) (.bare name (all_isNameSymbol hn) h)
  head c hc := (Option.some.inj hc).symm
  last := by
    intro hlast
    rcases List.mem_cons.1 (List.mem_of_getLast? hlast) with hmem | hmem
    · exact absurd hmem (by decide)
    · exact absurd (List.all_eq_true.1 hn _ hmem) (by decide)

theorem tagAttributes_quoted {v : Text} (hv : CleanValue '"' v) :
    TagAttributes (quotedAttribute name v) where
  body r h := by
    have hvalued := CleanTagBody.valued name [] [] '"' (all_isNameSymbol hn) rfl rfl rfl hv h
    have hbody := CleanTagBody.blank ' ' (by decide) hvalued
    simpa [quotedAttribute] using hbody
  head c hc := (Option.some.inj hc).symm
  last := by
    have hlast : (quotedAttribute name v).getLast? = some '"' := List.getLast?_concat
    rw [hlast]
    decide

omit hn in
theorem tagAttributes_directive {kind : TokenKind} {d : Text} (hd : CleanDirective kind d) :
    TagAttributes (' ' :: d) where
  body r h := .blank ' ' (by decide) (.directive hd h)
  head c hc := (Option.some.inj hc).symm
  last := by
    obtain ⟨body, rfl, -⟩ := hd.exists_body
    rw [← List.cons_append, List.getLast?_append]
    exact nofun

end TagAttributes

theorem cleanCode_string {name : Text} (hn : name.all isMarkupNamePart = true) :
    CleanCode ('"' :: name ++ ['"']) where
  no_close hin := by
    have hmem : '%' ∈ '"' :: name ++ ['"'] := hin.subset (by decide)
    have hname : '%' ∈ name := by simpa using hmem
    exact absurd (List.all_eq_true.1 hn _ hname) (by decide)
  closed := by
    rw [List.cons_append]
    change quoteAfter (some '"') (name ++ ['"']) = none
    induction name with
    | nil => rfl
    | cons c name ih =>
      rw [List.all_cons, Bool.and_eq_true] at hn
      have hquote : (c == '"') = false := by
        rw [beq_eq_false_iff_ne]
        rintro rfl
        exact absurd hn.1 (by decide)
      rw [List.cons_append, quoteAfter, hquote]
      · exact ih hn.2
      · rintro rfl
        exact absurd hn.1 (by decide)
      · rintro _ _ rfl
        exact absurd hn.1 (by decide)

theorem cleanCode_boolean {name code : Text} (hn : name.all isMarkupNamePart = true)
    (hc : CleanCode code) : CleanCode ('"' :: name ++ ['"'] ++ ' ' :: ("if " ++ code)) :=
  (cleanCode_string hn).append_cons (by decide) (by decide) (by decide) (cleanCode_condition hc)

theorem booleanAttribute_eq (name code : Text) :
    (" <%= \"" ++ name ++ "\" if " ++ code ++ " %>" : Text) =
      ' ' :: outputDirective ('"' :: name ++ ['"'] ++ ' ' :: ("if " ++ code)) := by
  simp [outputDirective]

theorem cleanCode_spread {code : Text} (hc : CleanCode code) :
    CleanCode ("render_attributes(" ++ (code ++ [')'])) :=
  (hc.append_inert (by decide) (by decide) (by decide)).inert_append (by decide)

theorem spreadAttribute_eq (code : Text) : (" <%= render_attributes(" ++ code ++ ") %>" : Text) =
    ' ' :: outputDirective ("render_attributes(" ++ (code ++ [')'])) := by
  simp [outputDirective]

theorem tagAttributes_spread {code : Text} (hc : CleanCode code) :
    TagAttributes (" <%= render_attributes(" ++ code ++ ") %>") := by
  rw [spreadAttribute_eq]
  exact tagAttributes_directive (cleanDirective_output (cleanCode_spread hc))

def unsupportedReason (name what : Text) : Text :=
  "Unsupported attribute value for " ++ name ++ ": " ++ what

def Expr.LexableCode (scope : Scope) (e : Expr) : Prop :=
  e.codeMisfits = [] ∧ CleanCode (e.code scope)

/-- Expressions that can be the value of the attribute `name`: numerals, codes that a directive
can hold, and what is reported for a reason that a comment can hold. -/
def Expr.LexableValue (scope : Scope) (isComponent : Bool) (name : Text) (e : Expr) : Prop :=
  match e with
  | .literal source _ .number => isQuotable source = true
  | .literal _ _ .string | .literal _ _ (.boolean _) | .literal _ _ .null
  | .literal _ _ .undefined => True
  | .markup .. => CleanReason (unsupportedReason name "MarkupExpression")
  | .function .. => CleanReason (unsupportedReason name "InlineFunction")
  | .other _ _ kind =>
    if kind == "object" && !isComponent then CleanReason (unsupportedReason name "object literal")
    else CleanCode (e.code scope)
  | .misplaced _ => False
  | _ => CleanCode (e.code scope)

def Value.Lexable (scope : Scope) (isComponent : Bool) (name : Text) : Value → Prop
  | .string _ | .expression none => True
  | .expression (some e) => e.LexableValue scope isComponent name
  | .unsupported kind _ => CleanReason (unsupportedReason name kind)
  | .misplaced _ => False

/-- Attributes with a name, whose handler or value can be written between quotes. A dropped
attribute is not written at all. -/
def Attribute.Lexable (scope : Scope) (isComponent : Bool) : Attribute → Prop
  | .spread argument => argument.LexableCode scope
  | .misplaced .. => False
  | .named name value =>
    isAmong name droppedAttributes = true ∨ isMarkupName name = true ∧
      if isEventName name && !isComponent then
        isQuotable (resolveHandler name value).1 = true ∧ handlerMisfits value = []
      else ∀ v ∈ value, v.Lexable scope isComponent name

def AttributeText.Clean : AttributeText → Prop
  | .part t => TagAttributes t
  | .failure reason => CleanReason reason
  | .misfit _ => False

section Value

variable {scope : Scope} {isComponent : Bool} {name html : Text}

/-- What an attribute that the tag writes as `html` can come to. -/
inductive AttributeText.Written (html : Text) : AttributeText → Prop
  | quoted {v : Text} : CleanValue '"' v → Written html (.part (quotedAttribute html v))
  | bare : Written html (.part (' ' :: html))
  | absent : Written html (.part [])
  | directive {code : Text} : CleanCode code → Written html (.part (' ' :: outputDirective code))
  | failure {reason : Text} : CleanReason reason → Written html (.failure reason)

theorem AttributeText.Written.clean {t : AttributeText} (h : t.Written html)
    (hh : html.all isMarkupNamePart = true) : t.Clean := by
  cases h with
  | quoted hv => exact tagAttributes_quoted hh hv
  | bare => exact tagAttributes_bare hh
  | absent => exact TagAttributes.nil
  | directive hc => exact tagAttributes_directive (cleanDirective_output hc)
  | failure hr => exact hr

theorem written_computed {code : Text} (hh : html.all isMarkupNamePart = true)
    (h : CleanCode code) :
    AttributeText.Written html (if !isComponent && isAmong html booleanAttributes then
      .part (" <%= \"" ++ html ++ "\" if " ++ code ++ " %>")
    else .part (quotedAttribute html (outputDirective code))) := by
  split
  · rw [booleanAttribute_eq]
    exact .directive (cleanCode_boolean hh h)
  · exact .quoted (cleanValue_output h)

theorem written_expressionAttribute {e : Expr} (hh : html.all isMarkupNamePart = true)
    (h : e.LexableValue scope isComponent name) :
    (expressionAttribute scope isComponent name html e).Written html := by
  cases e with
  | identifier => exact written_computed hh h
  | member => exact written_computed hh h
  | conditional => exact written_computed hh h
  | logical => exact written_computed hh h
  | call => exact written_computed hh h
  | misplaced => exact h.elim
  | function => exact .failure h
  | markup => exact .failure h
  | other source refs kind =>
    rw [Expr.LexableValue] at h
    rw [expressionAttribute]
    by_cases hobject : (kind == ("object" : Text) && !isComponent) = true
    · rw [if_pos hobject] at h ⊢
      exact .failure h
    · rw [if_neg hobject] at h ⊢
      exact written_computed hh h
  | literal source refs kind =>
    cases kind with
    | string => exact .quoted (cleanValue_of_isQuotable (isQuotable_attributeText _))
    | number => exact .quoted (cleanValue_of_isQuotable h)
    | boolean b =>
      cases b with
      | true => exact .bare
      | false => exact .absent
    | null => exact .absent
    | undefined => exact .absent
    | template => exact written_computed hh h
    | regex => exact written_computed hh h

theorem written_valueAttribute {value : Option Value} (hh : html.all isMarkupNamePart = true)
    (h : ∀ v ∈ value, v.Lexable scope isComponent name) :
    (valueAttribute scope isComponent name html value).Written html := by
  cases value with
  | none => exact .bare
  | some v =>
    have hv := h v rfl
    cases v with
    | string v => exact .quoted (cleanValue_of_isQuotable (isQuotable_attributeText v))
    | unsupported kind source => exact .failure hv
    | misplaced kind => exact hv.elim
    | expression e =>
      cases e with
      | none => exact .absent
      | some e => exact written_expressionAttribute hh hv

end Value

/-- What holds of the attributes of a tag as they are added one by one. -/
structure RenderedAttributes.Clean (r : RenderedAttributes) : Prop where
  parts : TagAttributes r.parts
  actions : ∀ a ∈ r.actions, isQuotable a = true
  leading : r.leading = r.warnings.flatMap Placeholder.comment
  warnings : ∀ reason ∈ r.warnings, CleanReason reason
  misfits : r.misfits = []

theorem RenderedAttributes.Clean.add {r : RenderedAttributes} {t : AttributeText} (hr : r.Clean)
    (ht : t.Clean) : (r.add t).Clean := by
  cases t with
  | part t => exact { hr with parts := hr.parts.append ht }
  | failure reason =>
    refine { hr with leading := ?_, warnings := ?_ }
    · rw [RenderedAttributes.add, List.flatMap_append, ← hr.leading, List.flatMap_singleton]
    · rw [RenderedAttributes.add, List.forall_mem_append, List.forall_mem_singleton]
      exact ⟨hr.warnings, ht⟩
  | misfit m => exact ht.elim

theorem all_isMarkupNamePart_eventOf {name : Text} (h : isMarkupName name = true) :
    (eventOf name).all isMarkupNamePart = true := by
  refine all_isMarkupNamePart_lower (List.all_eq_true.2 fun c hc ↦ ?_)
  exact List.all_eq_true.1 (all_of_isMarkupName h) c (List.mem_of_mem_drop hc)

theorem isQuotable_action {name handler : Text} (hn : isMarkupName name = true)
    (hh : isQuotable handler = true) : isQuotable (eventOf name ++ "->" ++ handler) = true := by
  have hevent := isQuotable_of_all_isMarkupNamePart (all_isMarkupNamePart_eventOf hn)
  exact isQuotable_append (isQuotable_append hevent (by decide)) hh

section Render

variable {scope : Scope} {isComponent : Bool}

theorem clean_renderAttribute {r : RenderedAttributes} {a : Attribute} (hr : r.Clean)
    (ha : a.Lexable scope isComponent) : (renderAttribute scope isComponent r a).Clean := by
  cases a with
  | spread argument =>
    obtain ⟨hmisfits, hcode⟩ := ha
    refine { hr with parts := ?_, misfits := ?_ }
    · have hparts := hr.parts.append (tagAttributes_spread hcode)
      simpa only [renderAttribute, List.append_assoc] using hparts
    · rw [renderAttribute, hr.misfits, hmisfits, List.append_nil]
  | misplaced kind name => exact ha.elim
  | named name value =>
    rw [renderAttribute]
    split
    · exact hr
    next hdropped =>
      obtain ⟨hn, hvalue⟩ := ha.resolve_left hdropped
      split
      next hevent =>
        rw [if_pos hevent] at hvalue
        refine { hr with actions := ?_, misfits := ?_ }
        · rw [List.forall_mem_append, List.forall_mem_singleton]
          exact ⟨hr.actions, isQuotable_action hn hvalue.1⟩
        · rw [hr.misfits, hvalue.2, List.append_nil]
      next hevent =>
        rw [if_neg hevent] at hvalue
        have hhtml := all_isMarkupNamePart_spelling isComponent hn
        exact hr.add ((written_valueAttribute hhtml hvalue).clean hhtml)

theorem clean_foldl_renderAttribute {attributes : List Attribute} {r : RenderedAttributes}
    (hr : r.Clean) (h : ∀ a ∈ attributes, a.Lexable scope isComponent) :
    (attributes.foldl (renderAttribute scope isComponent) r).Clean := by
  induction attributes generalizing r with
  | nil => exact hr
  | cons a attributes ih =>
    rw [List.forall_mem_cons] at h
    exact ih (clean_renderAttribute hr h.1) h.2

theorem clean_renderAttributes {attributes : List Attribute}
    (h : ∀ a ∈ attributes, a.Lexable scope isComponent) :
    (renderAttributes scope isComponent attributes).Clean := by
  have hempty : RenderedAttributes.Clean {} := ⟨.nil, nofun, rfl, nofun, rfl⟩
  have hr := clean_foldl_renderAttribute hempty h
  rw [renderAttributes]
  split
  · exact hr
  · have hactions := cleanValue_of_isQuotable (isQuotable_join " " (by decide) hr.actions)
    exact { hr with parts := hr.parts.append (tagAttributes_quoted (by decide) hactions) }

end Render

end ViewForge.Markup
