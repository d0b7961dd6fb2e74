import ViewForge.Script.Segment

namespace ViewForge.Script

open Text

/-- Optional chaining becomes safe navigation, unless a digit makes it a conditional. -/
def safeNavigation : Text → Text
  | [] => []
  | '?' :: '.' :: r =>
    if r.head?.any isDigit then '?' :: '.' :: safeNavigation r else '&' :: '.' :: safeNavigation r
  | c :: r => c :: safeNavigation r

def absentWords : List Text := ["null", "undefined"]

def absentWord? (t : Text) : Option Text :=
  absentWords.find? fun w ↦ startsWith t w && !(t.drop w.length).head?.any isNamePart

/-- Absent words become `nil`, `skip` characters of one being left; `before` is the character
that stands before the text. -/
def nilWordsFrom : Nat → Option Char → Text → Text
  | _, _, [] => []
  | k + 1, _, c :: r => nilWordsFrom k (some c) r
  | 0, before, c :: r =>
    if before.any fun b ↦ isNamePart b || b == '.' then c :: nilWordsFrom 0 (some c) r
    else
      match absentWord? (c :: r) with
      | some w => "nil" ++ nilWordsFrom (w.length - 1) (some c) r
      | none => c :: nilWordsFrom 0 (some c) r

def operators (t : Text) : Text :=
  nilWordsFrom 0 none (safeNavigation (replace "??" "||" (replace "===" "==" (replace "!==" "!=" t))))

/-- Fixed text of a template literal inside double quotes: quotes and would-be interpolations
gain a backslash, escaped backticks and dollars lose theirs, other escapes stay. -/
def fixedText : Text → Text
  | [] => []
  | '\\' :: d :: r =>
    if d == backtick || d == '$' then d :: fixedText r else '\\' :: d :: fixedText r
  | '#' :: '{' :: r => '\\' :: '#' :: '{' :: fixedText r
  | c :: r => if c == '"' then '\\' :: '"' :: fixedText r else c :: fixedText r

def toRuby (code : Text) : Text :=
  ((segments code).attach.map fun
    | ⟨.code t, _⟩ => operators t
    | ⟨.string t, _⟩ => t
    | ⟨.template t, _ht⟩ =>
      let parts := (templateParts t).attach.map fun
        | ⟨.fixed u, _⟩ => fixedText u
        | ⟨.substitution c, _hc⟩ => "#\x7b" ++ strip (toRuby c) ++ "\x7d"
      '"' :: parts.flatten ++ ['"']).flatten
termination_by code.length
decreasing_by
  exact Nat.lt_of_lt_of_le (length_lt_of_mem_templateParts _hc) (length_le_of_mem_segmentsFrom _ht)

end ViewForge.Script
