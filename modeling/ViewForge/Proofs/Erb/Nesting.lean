import Mathlib.Data.List.TakeWhile
import ViewForge.Proofs.Erb.Control

namespace ViewForge.Erb

open Text Markup

/-- What a position of a template stands inside of. -/
inductive Frame where
  | element (name : Text)
  | branch
  | alternative
  | loop
  deriving DecidableEq, Repr

/-- An `else` needs an `if` that has none yet, and an `end` closes the innermost directive. -/
def Control.nest : Control → List Frame → Option (List Frame)
  | .condition _, stack => some (.branch :: stack)
  | .repetition _ _, stack => some (.loop :: stack)
  | .otherwise, .branch :: stack => some (.alternative :: stack)
  | .close, .branch :: stack => some stack
  | .close, .alternative :: stack => some stack
  | .close, .loop :: stack => some stack
  | _, _ => none

def closeElement (name : Text) : List Frame → Option (List Frame)
  | .element opened :: stack => if opened = name then some stack else none
  | _ => none

def nest (stack : List Frame) (k : Token) : Option (List Frame) :=
  match k.kind with
  | .openTag =>
    some (if endsWith k.text "/>" then stack else .element (parseTag k.text).name :: stack)
  | .closeTag => closeElement (parseTag k.text).name stack
  | .code => k.control.nest stack
  | _ => some stack

/-- Every element and every directive is closed inside what it was opened in. -/
def WellNested (ts : List Token) : Prop := ts.foldlM nest [] = some []

instance : DecidablePred WellNested := fun _ ↦ inferInstanceAs (Decidable (_ = _))

def selfClosingToken (name attributes : Text) : Token :=
  ⟨.openTag, "<" ++ name ++ attributes ++ " />"⟩

def openToken (name attributes : Text) : Token := ⟨.openTag, "<" ++ name ++ attributes ++ ">"⟩

def closeToken (name : Text) : Token := ⟨.closeTag, "</" ++ name ++ ">"⟩

/-- The attributes of a tag, each with a space before it. -/
structure TagAttributes (a : Text) : Prop where
  body : ∀ r, CleanTagBody r → CleanTagBody (a ++ r)
  head : ∀ c ∈ a.head?, c = ' '
  last : a.getLast? ≠ some '/'

namespace TagAttributes

theorem nil : TagAttributes [] := ⟨fun _ h ↦ h, nofun, nofun⟩

theorem append {a b : Text} (ha : TagAttributes a) (hb : TagAttributes b) :
    TagAttributes (a ++ b) where
  body r h := by
    rw [List.append_assoc]
    exact ha.body _ (hb.body r h)
  head c hc := by
    cases a with
    | nil => exact hb.head c hc
    | cons d a => exact ha.head c hc
  last := by
    rw [List.getLast?_append]
    cases hlast : b.getLast? with
    | none => exact ha.last
    | some c =>
      rw [Option.some_or, ← hlast]
      exact hb.last

theorem clean_openTag {name a : Text} (hn : isTagName name = true) (ha : TagAttributes a) :
    (openToken name a).Clean := by
  rw [openToken, List.append_assoc]
  exact .openTag name hn (ha.body _ .close)

theorem clean_selfClosing {name a : Text} (hn : isTagName name = true) (ha : TagAttributes a) :
    (selfClosingToken name a).Clean := by
  rw [selfClosingToken, List.append_assoc]
  exact .openTag name hn (ha.body _ (.blank ' ' (by decide) .selfClose))

end TagAttributes

section Trim

variable {p : Char → Bool}

theorem trimRight_concat {c : Char} (t : Text) (hc : p c = true) :
    trimRight p (t ++ [c]) = trimRight p t := by
  induction t with
  | nil => simp [trimRight, hc]
  | cons d t ih => rw [List.cons_append, trimRight, trimRight, ih]

theorem trimRight_eq_self {t : Text} (h : ∀ c ∈ t, p c = false) : trimRight p t = t := by
  induction t with
  | nil => rfl
  | cons c t ih =>
    rw [List.forall_mem_cons] at h
    rw [trimRight, ih h.2]
    cases t with
    | nil => simp [h.1]
    | cons d t => rfl

end Trim

theorem isBlank_eq_false {c : Char} (h₁ : 32 < c.toNat) (h₂ : c.toNat < 128) :
    isBlank c = false := by
  simp only [isBlank, Bool.or_eq_false_iff, Bool.and_eq_false_iff, decide_eq_false_iff_not,
    beq_eq_false_iff_ne]
  omega

theorem toNat_of_isAsciiLetter {c : Char} (h : isAsciiLetter c = true) :
    65 ≤ c.toNat ∧ c.toNat ≤ 122 := by
  simp only [isAsciiLetter, isAsciiUpper, isAsciiLower, Bool.or_eq_true, Bool.and_eq_true,
    decide_eq_true_eq, Char.le_def, UInt32.le_iff_toNat_le] at h
  rcases h with h | h
  · exact ⟨h.1, h.2.trans (by decide)⟩
  · exact ⟨le_trans (by decide) h.1, h.2⟩

def isMarkupNamePart (c : Char) : Bool :=
  isAsciiLetter c || isAsciiDigit c || c == '-' || c == '_' || c == ':'

theorem toNat_of_isMarkupNamePart {c : Char} (h : isMarkupNamePart c = true) :
    45 ≤ c.toNat ∧ c.toNat ≤ 122 := by
  simp only [isMarkupNamePart, Bool.or_eq_true, beq_iff_eq] at h
  rcases h with (((h | h) | rfl) | rfl) | rfl
  · have hletter := toNat_of_isAsciiLetter h
    omega
  · simp only [isAsciiDigit, Bool.and_eq_true, decide_eq_true_eq, Char.le_def,
      UInt32.le_iff_toNat_le] at h
    exact ⟨le_trans (by decide) h.1, le_trans h.2 (by decide)⟩
  all_goals decide

theorem isNameSymbol_of_isMarkupNamePart {c : Char} (h : isMarkupNamePart c = true) :
    isNameSymbol c = true := by
  obtain ⟨hlow, hhigh⟩ := toNat_of_isMarkupNamePart h
  have hblank : isBlank c = false := isBlank_eq_false (by omega) (by omega)
  have hquote : isQuote c = false := by
    simp only [isQuote, Bool.or_eq_false_iff, beq_eq_false_iff_ne]
    exact ⟨ne_of_class h (by decide), ne_of_class h (by decide)⟩
  have hpart : isAttributeNamePart c = true := by
    simp only [isAttributeNamePart, hblank, Bool.not_eq_true', Bool.or_eq_false_iff,
      beq_eq_false_iff_ne, true_and]
    exact ⟨⟨ne_of_class h (by decide), ne_of_class h (by decide)⟩, ne_of_class h (by decide)⟩
  rw [isNameSymbol, hpart, hquote, bne_iff_ne.2 (ne_of_class h (by decide))]
  rfl

theorem isNameSymbol_of_mem {name : Text} {c : Char} (h : isTagName name = true) (hc : c ∈ name) :
    isNameSymbol c = true := by
  cases name with
  | nil => cases hc
  | cons d s =>
    rw [isTagName, Bool.and_eq_true] at h
    rcases List.mem_cons.1 hc with rfl | hc
    · exact isNameSymbol_of_isMarkupNamePart (by simp [isMarkupNamePart, h.1])
    · exact List.all_eq_true.1 h.2 c hc

theorem ne_end_of_isTagName {name : Text} {c : Char} (h : isTagName name = true) (hc : c ∈ name) :
    isBlank c = false ∧ (c == '/') = false ∧ (c == '>') = false := by
  have hsymbol := isNameSymbol_of_mem h hc
  simp only [isNameSymbol, isAttributeNamePart, Bool.and_eq_true, Bool.not_eq_true',
    Bool.or_eq_false_iff] at hsymbol
  obtain ⟨⟨⟨⟨⟨hblank, -⟩, hslash⟩, hgt⟩, -⟩, -⟩ := hsymbol
  exact ⟨hblank, hslash, hgt⟩

theorem parseTag_closeTag {name : Text} (h : isTagName name = true) :
    (parseTag ("</" ++ name ++ ">")).name = name := by
  have hblank : ∀ c ∈ name, isBlank c = false := fun c hc ↦ (ne_end_of_isTagName h hc).1
  have hgt : ∀ c ∈ name, (c == '>') = false := fun c hc ↦ (ne_end_of_isTagName h hc).2.2
  have hstrip : strip name = name := by
    rw [strip, trim, trimLeft, List.dropWhile_eq_self_iff.2, trimRight_eq_self hblank]
    exact fun hlen ↦ Bool.eq_false_iff.1 (hblank _ (List.getElem_mem hlen))
  have hclose : startsWith ("</" ++ name ++ ">") "</" = true := rfl
  have hdrop : ("</" ++ name ++ ">" : Text).drop 2 = name ++ ['>'] := rfl
  rw [parseTag, if_pos hclose, hdrop, trimRight_concat name (by decide), trimRight_eq_self hgt,
    hstrip]

theorem parseTag_openTag {name a : Text} (h : isTagName name = true)
    (ha : ∀ c ∈ a.head?, c = ' ') : (parseTag ("<" ++ name ++ a ++ ">")).name = name := by
  have hopen : ¬startsWith ("<" ++ name ++ a ++ ">") "</" = true := by
    obtain ⟨c, s, rfl, hc, -⟩ := exists_letter_of_isTagName h
    have hslash : ('/' == c) = false := beq_of_class hc (by decide)
    change ¬('<' == '<' && ('/' == c && true)) = true
    rw [hslash]
    decide
  have hend : endsWith ("<" ++ name ++ a ++ ">") ">" = true :=
    endsWith_iff.2 (List.suffix_append _ _)
  have hbody : (("<" ++ name ++ a ++ ">" : Text).drop 1).dropLast = name ++ a :=
    List.dropLast_concat
  have hname : ∀ c ∈ name, (!(isBlank c || c == '/' || c == '>')) = true := by
    intro c hc
    obtain ⟨hblank, hslash, hgt⟩ := ne_end_of_isTagName h hc
    rw [hblank, hslash, hgt]
    rfl
  have hrest : a.takeWhile (fun c ↦ !(isBlank c || c == '/' || c == '>')) = [] := by
    cases a with
    | nil => rfl
    | cons c a =>
      cases ha c rfl
      rfl
  rw [parseTag, if_neg hopen, if_pos hend, hbody]
  simp only [List.takeWhile_append_of_pos hname, hrest, List.append_nil]

theorem endsWith_slash_iff {t : Text} :
    endsWith (t ++ ">") "/>" = true ↔ t.getLast? = some '/' := by
  rw [endsWith_iff]
  constructor
  · rintro ⟨u, hu⟩
    have hu : u ++ ['/'] ++ ['>'] = t ++ ['>'] := by simpa using hu
    rw [← List.append_cancel_right hu, List.getLast?_concat]
  · intro h
    obtain ⟨u, rfl⟩ := List.getLast?_eq_some_iff.1 h
    exact ⟨u, by simp⟩

section Nest

variable {name a : Text} (stack : List Frame)

theorem nest_openTag (hn : isTagName name = true) (ha : TagAttributes a) :
    nest stack (openToken name a) = some (.element name :: stack) := by
  have hlast : ¬endsWith ("<" ++ name ++ a ++ ">") "/>" = true := by
    rw [endsWith_slash_iff, List.getLast?_append]
    cases hlast : a.getLast? with
    | some c =>
      rw [Option.some_or, ← hlast]
      exact ha.last
    | none =>
      intro h
      have hmem := List.mem_of_getLast? (Option.none_or.symm.trans h)
      rcases List.mem_append.1 hmem with hmem | hmem
      · exact absurd hmem (by decide)
      · exact absurd (ne_end_of_isTagName hn hmem).2.1 (by decide)
  simp only [openToken, nest, if_neg hlast, parseTag_openTag hn ha.head]

theorem nest_selfClosing : nest stack (selfClosingToken name a) = some stack := by
  have hend : endsWith ("<" ++ name ++ a ++ " />") "/>" = true :=
    endsWith_iff.2 ⟨"<" ++ name ++ a ++ " ", by simp⟩
  exact congrArg some (if_pos hend)

theorem nest_closeTag (hn : isTagName name = true) :
    nest (.element name :: stack) (closeToken name) = some stack := by
  simp only [closeToken, nest, parseTag_closeTag hn, closeElement, if_true]

theorem nest_code (code : Text) :
    nest stack (codeToken code) = (codeToken code).control.nest stack := rfl

theorem nest_condition (test : Text) :
    nest stack (codeToken ("if " ++ test)) = some (.branch :: stack) := by
  rw [nest_code, control_condition]
  rfl

theorem nest_loopCode {item : Text} {index : Option Text} (receiver : Text)
    (hitem : isVariable item = true) (hindex : ∀ i ∈ index, isVariable i = true) :
    ∃ frame, nest stack (codeToken (loopCode receiver item index)) = some (frame :: stack) ∧
      nest (frame :: stack) (codeToken "end") = some stack := by
  rw [nest_code, control_loopCode receiver hitem hindex]
  split
  · exact ⟨.branch, rfl, rfl⟩
  · exact ⟨.loop, rfl, rfl⟩

end Nest

end ViewForge.Erb
