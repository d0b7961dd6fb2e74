import ViewForge.Markup.Render
import ViewForge.Proofs.Erb.Join
import ViewForge.Proofs.Text.Splitting

namespace ViewForge.Erb

open Text Markup

/-- What a directive does to the flow of a template. -/
inductive Control where
  | condition (test : Text)
  | otherwise
  | repetition (receiver : Text) (names : List Text)
  | close
  | statement
  deriving DecidableEq, Repr

def loopParts? (code : Text) : Option (Text × List Text) :=
  match code.reverse with
  | '|' :: r =>
    let head := (r.dropWhile (· != '|')).reverse
    let names := splitOnText ", " (r.takeWhile (· != '|')).reverse
    if endsWith head ".each do |" then some (head.take (head.length - 10), names)
    else if endsWith head ".each_with_index do |" then some (head.take (head.length - 21), names)
    else none
  | _ => none

def Control.ofCode (code : Text) : Control :=
  if code == "end" then .close
  else if code == "else" then .otherwise
  else if startsWith code "if " then .condition (code.drop 3)
  else
    match loopParts? code with
    | some (receiver, names) => .repetition receiver names
    | none => .statement

/-- The control of a directive written with one space inside its delimiters. -/
def Token.control (k : Token) : Control :=
  .ofCode ((k.text.drop 3).take (k.text.length - 6))

def loopCode (receiver item : Text) : Option Text → Text
  | none => receiver ++ ".each do |" ++ item ++ "|"
  | some index => receiver ++ ".each_with_index do |" ++ item ++ ", " ++ index ++ "|"

def codeToken (code : Text) : Token := ⟨.code, codeDirective code⟩

theorem control_codeToken (code : Text) : (codeToken code).control = .ofCode code := by
  have hinner : ((codeDirective code).drop 3).take ((codeDirective code).length - 6) = code := by
    have hlen : (codeDirective code).length - 6 = code.length := by simp [codeDirective]
    rw [hlen]
    exact List.take_left
  rw [Token.control, codeToken, hinner]

theorem ofCode_of_startsWith {code : Text} (h : startsWith code "if " = true) :
    Control.ofCode code = .condition (code.drop 3) := by
  obtain ⟨test, rfl⟩ := startsWith_iff.1 h
  have hend : (("if " ++ test : Text) == "end") = false := rfl
  have helse : (("if " ++ test : Text) == "else") = false := rfl
  rw [Control.ofCode, hend, helse, h]
  rfl

theorem control_condition (test : Text) :
    (codeToken ("if " ++ test)).control = .condition test := by
  rw [control_codeToken, ofCode_of_startsWith (startsWith_iff.2 (List.prefix_append _ test))]
  rfl

section Split

variable {c : Char} {t : Text} (sep : Text) (h : c ∉ t)

include h

theorem splitOnText_of_not_mem : splitOnText (c :: sep) t = [t] := by
  unfold splitOnText
  induction t with
  | nil => rfl
  | cons d t ih =>
    rw [List.mem_cons, not_or] at h
    have hpre : (c :: sep).isPrefixOf (d :: t) = false := by
      simp [List.isPrefixOf, h.1]
    rw [splitOnTextFrom, hpre, ih h.2]
    rfl

theorem splitOnText_append (u : Text) :
    splitOnText (c :: sep) (t ++ (c :: sep) ++ u) = t :: splitOnText (c :: sep) u := by
  unfold splitOnText
  induction t with
  | nil =>
    have hpre : (c :: sep).isPrefixOf (c :: (sep ++ u)) = true :=
      List.isPrefixOf_iff_prefix.2 (List.prefix_append (c :: sep) u)
    rw [List.nil_append, List.cons_append, splitOnTextFrom, if_pos hpre]
    exact congrArg _ (splitOnTextFrom_length_append (c :: sep) sep u)
  | cons d t ih =>
    rw [List.mem_cons, not_or] at h
    have hpre : (c :: sep).isPrefixOf (d :: (t ++ (c :: sep) ++ u)) = false := by
      simp [List.isPrefixOf, h.1]
    rw [List.cons_append, List.cons_append, splitOnTextFrom, hpre, ih h.2]
    rfl

end Split

/-- The parameters of a loop stand between its last two bars. -/
theorem loopParts?_bars {names : Text} (head : Text) (hhead : ['|'] <:+ head) (h : '|' ∉ names) :
    loopParts? (head ++ names ++ ['|']) =
      if endsWith head ".each do |" then
        some (head.take (head.length - 10), splitOnText ", " names)
      else if endsWith head ".each_with_index do |" then
        some (head.take (head.length - 21), splitOnText ", " names)
      else none := by
  obtain ⟨start, rfl⟩ := hhead
  have hrev : (start ++ ['|'] ++ names ++ ['|']).reverse =
      '|' :: (names.reverse ++ '|' :: start.reverse) := by simp
  have hall : ∀ c ∈ names.reverse, (c != '|') = true := by
    intro c hc
    rw [bne_iff_ne]
    rintro rfl
    exact h (List.mem_reverse.1 hc)
  have hdrop : (names.reverse ++ '|' :: start.reverse).dropWhile (· != '|') =
      '|' :: start.reverse := by
    rw [List.dropWhile_append_of_pos hall]
    rfl
  have htake : (names.reverse ++ '|' :: start.reverse).takeWhile (· != '|') = names.reverse := by
    rw [List.takeWhile_append_of_pos hall]
    simp
  rw [loopParts?, hrev]
  simp only [hdrop, htake, List.reverse_cons, List.reverse_reverse]

def isVariable (t : Text) : Bool := t.all isNamePart

theorem not_mem_of_isVariable {t : Text} {c : Char} (h : isVariable t = true)
    (hc : isNamePart c = false) : c ∉ t := by
  intro hmem
  rw [List.all_eq_true.1 h c hmem] at hc
  cases hc

theorem loopParts?_loopCode {item : Text} {index : Option Text} (receiver : Text)
    (hitem : isVariable item = true) (hindex : ∀ i ∈ index, isVariable i = true) :
    loopParts? (loopCode receiver item index) = some (receiver, item :: index.toList) := by
  have hbar := not_mem_of_isVariable hitem (by decide : isNamePart '|' = false)
  have hcomma := not_mem_of_isVariable hitem (by decide : isNamePart ',' = false)
  cases index with
  | none =>
    have hend : endsWith (receiver ++ ".each do |") ".each do |" = true :=
      endsWith_iff.2 (List.suffix_append receiver _)
    have hlen : (receiver ++ ".each do |").length - 10 = receiver.length := by simp
    have hnames : splitOnText ", " item = [item] := splitOnText_of_not_mem [' '] hcomma
    have hparts := loopParts?_bars (receiver ++ ".each do |")
      ⟨receiver ++ ".each do ", by simp⟩ hbar
    rw [if_pos hend, hlen, List.take_left, hnames] at hparts
    exact hparts
  | some i =>
    have hi := not_mem_of_isVariable (hindex i rfl) (by decide : isNamePart '|' = false)
    have hcomma' := not_mem_of_isVariable (hindex i rfl) (by decide : isNamePart ',' = false)
    have hshort : ¬endsWith (receiver ++ ".each_with_index do |") ".each do |" = true := by
      simp [endsWith]
    have hend : endsWith (receiver ++ ".each_with_index do |") ".each_with_index do |" = true :=
      endsWith_iff.2 (List.suffix_append receiver _)
    have hlen : (receiver ++ ".each_with_index do |").length - 21 = receiver.length := by simp
    have hnames : splitOnText ", " (item ++ ", " ++ i) = [item, i] :=
      (splitOnText_append [' '] hcomma i).trans
        (congrArg _ (splitOnText_of_not_mem [' '] hcomma'))
    have hbars : '|' ∉ (item ++ ", " ++ i : Text) := by simp [hbar, hi]
    have hparts := loopParts?_bars (receiver ++ ".each_with_index do |")
      ⟨receiver ++ ".each_with_index do ", by simp⟩ hbars
    rw [if_neg hshort, if_pos hend, hlen, List.take_left, hnames] at hparts
    rw [loopCode, Option.toList_some, ← hparts]
    simp only [List.append_assoc]
    rfl

theorem loopCode_beq {receiver item code : Text} {index : Option Text}
    (h : code.getLast? ≠ some '|') : (loopCode receiver item index == code) = false := by
  rw [beq_eq_false_iff_ne]
  rintro rfl
  cases index <;> exact h List.getLast?_concat

def isInert (c : Char) : Bool := !isQuote c && c != '%'

theorem isInert_of_isNamePart (c : Char) (h : isNamePart c = true) : isInert c = true := by
  simp only [isInert, isQuote, Bool.and_eq_true, Bool.not_eq_true', Bool.or_eq_false_iff,
    bne_iff_ne, beq_eq_false_iff_ne]
  exact ⟨⟨ne_of_class h (by decide), ne_of_class h (by decide)⟩, ne_of_class h (by decide)⟩

theorem all_isInert_of_isVariable {t : Text} (h : isVariable t = true) : t.all isInert = true :=
  List.all_eq_true.2 fun c hc ↦ isInert_of_isNamePart c (List.all_eq_true.1 h c hc)

theorem exists_loopCode_eq (receiver item : Text) (index : Option Text) :
    ∃ rest, loopCode receiver item index = receiver ++ '.' :: rest ∧
      (isVariable item = true → (∀ i ∈ index, isVariable i = true) → rest.all isInert = true) := by
  cases index with
  | none =>
    refine ⟨"each do |" ++ (item ++ "|"), ?_, fun hitem _ ↦ ?_⟩
    · rw [loopCode, List.append_assoc, List.append_assoc]
      rfl
    · simp only [List.all_append, all_isInert_of_isVariable hitem]
      decide
  | some i =>
    refine ⟨"each_with_index do |" ++ (item ++ (", " ++ (i ++ "|"))), ?_, fun hitem hi ↦ ?_⟩
    · simp only [loopCode, List.append_assoc]
      rfl
    · simp only [List.all_append, all_isInert_of_isVariable hitem,
        all_isInert_of_isVariable (hi i rfl)]
      decide

theorem startsWith_loopCode (receiver item : Text) (index : Option Text) :
    startsWith (loopCode receiver item index) "if " = startsWith receiver "if " := by
  obtain ⟨rest, hrest, -⟩ := exists_loopCode_eq receiver item index
  rw [hrest]
  -- The mark has no dot, so it ends before the one after the receiver.
  rcases receiver with _ | ⟨a, _ | ⟨b, _ | ⟨c, r⟩⟩⟩ <;> simp [startsWith, List.isPrefixOf]

/-- The head of a loop opens a loop, unless its receiver reads as a condition. -/
theorem control_loopCode {item : Text} {index : Option Text} (receiver : Text)
    (hitem : isVariable item = true) (hindex : ∀ i ∈ index, isVariable i = true) :
    (codeToken (loopCode receiver item index)).control =
      if startsWith receiver "if " then .condition ((loopCode receiver item index).drop 3)
      else .repetition receiver (item :: index.toList) := by
  have hend : (loopCode receiver item index == ("end" : Text)) = false := loopCode_beq (by decide)
  have helse : (loopCode receiver item index == ("else" : Text)) = false := loopCode_beq (by decide)
  rw [control_codeToken, ← startsWith_loopCode receiver item index]
  by_cases hif : startsWith (loopCode receiver item index) "if " = true
  · rw [if_pos hif, ofCode_of_startsWith hif]
  · rw [if_neg hif, Control.ofCode, hend, helse, if_neg hif, loopParts?_loopCode _ hitem hindex]
    rfl

section CleanCode

variable {code p : Text}

theorem CleanCode.nil : CleanCode [] := ⟨by decide, rfl⟩

theorem CleanCode.inert_append (hp : p.all isInert = true) (h : CleanCode code) :
    CleanCode (p ++ code) := by
  induction p with
  | nil => exact h
  | cons c p ih =>
    simp only [List.all_cons, isInert, Bool.and_eq_true, Bool.not_eq_true', bne_iff_ne] at hp
    exact (ih hp.2).cons hp.1.1 hp.1.2

theorem cleanCode_of_isVariable {t : Text} (h : isVariable t = true) : CleanCode t := by
  have hclean := CleanCode.nil.inert_append (all_isInert_of_isVariable h)
  rwa [List.append_nil] at hclean

theorem CleanCode.append_inert (h : CleanCode code) {c : Char} (hc : isInert c = true)
    (hgt : c ≠ '>') (hp : p.all isInert = true) : CleanCode (code ++ c :: p) := by
  simp only [isInert, Bool.and_eq_true, Bool.not_eq_true', bne_iff_ne] at hc
  have hrest := CleanCode.nil.inert_append hp
  rw [List.append_nil] at hrest
  exact h.append_cons hc.1 hc.2 hgt hrest

theorem cleanCode_padded (h : CleanCode code) : CleanCode (' ' :: (code ++ [' '])) :=
  (h.append_inert (by decide) (by decide) (by decide)).cons (by decide) (by decide)

theorem clean_codeToken (h : CleanCode code) : (codeToken code).Clean := by
  have hbody : codeDirective code = "<%" ++ ' ' :: (code ++ [' ']) ++ "%>" := by
    simp [codeDirective]
  rw [codeToken, hbody]
  exact .directive (.code _ (cleanCode_padded h) nofun nofun)

theorem cleanDirective_output (h : CleanCode code) :
    CleanDirective .output (outputDirective code) := by
  have hbody : outputDirective code = "<%=" ++ ' ' :: (code ++ [' ']) ++ "%>" := by
    simp [outputDirective]
  rw [hbody]
  exact .output _ (cleanCode_padded h)

theorem cleanCode_condition (h : CleanCode code) : CleanCode ("if " ++ code) :=
  h.inert_append (by decide)

theorem cleanCode_loopCode {receiver item : Text} {index : Option Text} (h : CleanCode receiver)
    (hitem : isVariable item = true) (hindex : ∀ i ∈ index, isVariable i = true) :
    CleanCode (loopCode receiver item index) := by
  obtain ⟨rest, hrest, hinert⟩ := exists_loopCode_eq receiver item index
  rw [hrest]
  exact h.append_inert (by decide) (by decide) (hinert hitem hindex)

end CleanCode

end ViewForge.Erb
