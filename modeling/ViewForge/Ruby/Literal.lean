import ViewForge.Text.Basic

namespace ViewForge.Ruby

/-- Escapes what a double-quoted literal would read otherwise: the backslash, the quote and the
start of an interpolation. -/
def escape : Text → Text
  | [] => []
  | '#' :: '{' :: r => '\\' :: '#' :: '{' :: escape r
  | c :: r => if c == '\\' || c == '"' then '\\' :: c :: escape r else c :: escape r

def quoted (t : Text) : Text := '"' :: escape t ++ ['"']

end ViewForge.Ruby
