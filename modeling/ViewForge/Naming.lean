import ViewForge.Text.Letter

namespace ViewForge.Naming

open Text

def snakeCase (t : Text) : Text :=
  lower ((t.flatMap fun c ↦ if isAsciiUpper c then ['_', c] else [c]).dropWhile (· == '_'))

def kebabCase (t : Text) : Text := (snakeCase t).map fun c ↦ if c == '_' then '-' else c

/-- A small letter after `-` or `_` becomes a capital and the separator goes. -/
def camelCase : Text → Text
  | [] => []
  | [c] => [c]
  | c :: d :: r =>
    if (c == '-' || c == '_') && isAsciiLower d then upperChar d :: camelCase r
    else c :: camelCase (d :: r)

def pascalCase (t : Text) : Text := capitalize (camelCase t)

/-- The segments of a path written with `::` or `/`; empty ones are dropped. -/
def segmentsFrom : Text → List Text
  | [] => [[]]
  | ':' :: ':' :: r => [] :: segmentsFrom r
  | c :: r =>
    match segmentsFrom r with
    | [] => [[c]]
    | h :: t => if c == '/' then [] :: h :: t else (c :: h) :: t

def segments (path : Text) : List Text := (segmentsFrom path).filter (!·.isEmpty)

def constantPath (namespaceName : Text) : Text :=
  join "::" ((segments namespaceName).map pascalCase)

def moduleNames (namespaceName : Text) : List Text := splitOnText "::" (constantPath namespaceName)

def directory (namespaceName : Text) : Text :=
  join "/" ((moduleNames namespaceName).map snakeCase)

end ViewForge.Naming
