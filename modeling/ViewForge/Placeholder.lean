import ViewForge.Text.Basic

namespace ViewForge.Placeholder

open Text

def marker : Text := "TODO:"

def spaced : Text → Text
  | [] => []
  | '-' :: '-' :: r => '-' :: ' ' :: '-' :: spaced r
  | c :: r => c :: spaced r

/-- The comment that stands where something could not be rendered. -/
def comment (reason : Text) : Text := "<!-- " ++ marker ++ " " ++ spaced reason ++ " -->"

/-- The template of a component without any markup. -/
def wholeTemplate (reason : Text) : Text := "<div>" ++ comment reason ++ "</div>"

def count (markup : Text) : Nat := occurrences ("<!-- " ++ marker) markup

end ViewForge.Placeholder
