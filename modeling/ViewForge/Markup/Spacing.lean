import ViewForge.Text.Basic

namespace ViewForge.Markup

open Text

def unixBreaks : Text → Text
  | [] => []
  | '\r' :: '\n' :: r => '\n' :: unixBreaks r
  | c :: r => c :: unixBreaks r

def isSpace (c : Char) : Bool := c == ' '

/-- Trims lines where they meet a line break: all but the first on the left, all but the last
on the right. -/
def trimInner (isFirst : Bool) : List Text → List Text
  | [] => []
  | [l] => [if isFirst then l else trimLeft isSpace l]
  | l :: r => trimRight isSpace (if isFirst then l else trimLeft isSpace l) :: trimInner false r

def cleanText (raw : Text) : Text :=
  let untabbed := (unixBreaks raw).map fun c ↦ if c == '\t' then ' ' else c
  join " " ((trimInner true (lines untabbed)).filter (!·.isEmpty))

end ViewForge.Markup
