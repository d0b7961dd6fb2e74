import ViewForge.Data.Assoc
import ViewForge.Text.Basic

namespace ViewForge

/-- A datum. Of a number that is no integer only that much is kept. -/
inductive Data where
  | null
  | bool (b : Bool)
  | integer (n : Int)
  | fraction
  | text (t : Text)
  | list (items : List Data)
  | table (entries : List (Text × Data))

namespace Data

def ofTexts (ts : List Text) : Data := .list (ts.map .text)

def ofText? (t : Option Text) : Data := (t.map .text).getD .null

def get? (entries : List (Text × Data)) (key : Text) : Option Data := Assoc.get? key entries

def hexDigit (n : Nat) : Char := Nat.digitChar n

def jsonChar (c : Char) : Text :=
  if c == '"' then ['\\', '"']
  else if c == '\\' then ['\\', '\\']
  else if c == '\n' then ['\\', 'n']
  else if c == '\r' then ['\\', 'r']
  else if c == '\t' then ['\\', 't']
  else if c == '\x08' then ['\\', 'b']
  else if c == '\x0c' then ['\\', 'f']
  else if c.toNat < 32 then "\\u00" ++ [hexDigit (c.toNat / 16), hexDigit (c.toNat % 16)]
  else [c]

def jsonString (t : Text) : Text := '"' :: t.flatMap jsonChar ++ ['"']

def newline (depth : Nat) : Text := '\n' :: List.replicate (2 * depth) ' '

/-- Items between brackets, one on a line, two spaces deeper than the brackets. -/
def bracketed (opening closing : Char) (depth : Nat) (items : List Text) : Text :=
  if items.isEmpty then [opening, closing]
  else
    opening :: newline (depth + 1) ++ Text.join (',' :: newline (depth + 1)) items ++
      newline depth ++ [closing]

mutual

def toJson (depth : Nat) : Data → Text
  | .null | .fraction => "null"
  | .bool true => "true"
  | .bool false => "false"
  | .integer n => (toString n).toList
  | .text t => jsonString t
  | .list items => bracketed '[' ']' depth (itemsToJson (depth + 1) items)
  | .table entries => bracketed '{' '}' depth (entriesToJson (depth + 1) entries)

def itemsToJson (depth : Nat) : List Data → List Text
  | [] => []
  | d :: r => toJson depth d :: itemsToJson depth r

def entriesToJson (depth : Nat) : List (Text × Data) → List Text
  | [] => []
  | (k, d) :: r => (jsonString k ++ ": " ++ toJson depth d) :: entriesToJson depth r

end

end Data

end ViewForge
