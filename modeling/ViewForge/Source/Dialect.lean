import ViewForge.Text.Letter

namespace ViewForge.Source

open Text

/-- Plain scripts with markup, or with types besides. -/
inductive Dialect where
  | jsx
  | tsx
  deriving DecidableEq, Repr

def Dialect.label : Dialect → Text
  | .jsx => "jsx"
  | .tsx => "tsx"

def Dialect.ofSuffix (suffix : Text) : Dialect :=
  if lower suffix == ".ts" || lower suffix == ".tsx" then .tsx else .jsx

end ViewForge.Source
