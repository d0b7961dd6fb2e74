import ViewForge.Proofs.Ruby.Reading
import ViewForge.Source.Scan

namespace ViewForge.Script

open Text Source

/-- The key of a property that is a name or a string. -/
inductive Key where
  | name (text : Text)
  | string (quote : Delimiter) (body : Text)

mutual

/-- Literals of any depth. A template without substitutions is a string in backticks. -/
inductive Literal where
  | string (quote : Delimiter) (body : Text)
  | numeral (text : Text)
  | negative (gap text : Text)
  | boolean (value : Bool)
  | null
  | undefined
  | array (items : Items)
  | object (pairs : Pairs)

/-- The items of an array, some of them left out between commas. -/
inductive Items where
  | nil
  | hole (rest : Items)
  | item (first : Literal) (rest : Items)

inductive Pairs where
  | nil
  | pair (key : Key) (value : Literal) (rest : Pairs)

end

/-- The property that sets the prototype of an object, and is none of its own. -/
def prototypeKey : List Nat := units "__proto__"

def Key.name? : Key → Option (List Nat)
  | .name text => meaning? .apostrophe text
  | .string .backtick _ => none
  | .string quote body => meaning? quote body

mutual

def Literal.value? : Literal → Option LiteralValue
  | .string quote body => (meaning? quote body).map .string
  | .numeral text => (number? text).map .number
  | .negative gap text =>
    if gapLength .code gap = gap.length then (number? text).map fun a ↦ .number a.neg else none
  | .boolean value => some (.boolean value)
  | .null | .undefined => some .nil
  | .array items => items.values?.map .array
  | .object pairs => pairs.entries?.map .hash

def Items.values? : Items → Option (List LiteralValue)
  | .nil => some []
  | .hole rest => rest.values?.map (.nil :: ·)
  | .item first rest => first.value?.bind fun v ↦ rest.values?.map (v :: ·)

def Pairs.entries? : Pairs → Option (List (List Nat × LiteralValue))
  | .nil => some []
  | .pair key value rest =>
    key.name?.bind fun k ↦ value.value?.bind fun v ↦
      rest.entries?.map fun es ↦ if k = prototypeKey then es else (k, v) :: es

end

section Place

variable (source : Text)

def Delimiter.kind : Delimiter → Kind
  | .backtick => .template
  | _ => .string

def enclosed (quote : Delimiter) (body : Text) : Text := quote.char :: body ++ [quote.char]

def Key.IsAt (t : Tree) : Key → Prop
  | .name text => t.kind = .propertyIdentifier ∧ t.textIn source = text
  | .string quote body => t.kind = .string ∧ t.textIn source = enclosed quote body

mutual

def Literal.IsAt : Literal → Tree → Prop
  | .string quote body, t =>
    t.unwrapped.kind = quote.kind ∧ t.unwrapped.textIn source = enclosed quote body ∧
      ∀ c ∈ t.unwrapped.children, c.kind ≠ .substitution
  | .numeral text, t => t.unwrapped.kind = .number ∧ t.unwrapped.textIn source = text
  | .negative gap text, t =>
    t.unwrapped.kind = .unary ∧ t.unwrapped.textIn source = '-' :: (gap ++ text) ∧
      t.unwrapped.parts.map Tree.kind = [.number]
  | .boolean value, t => t.unwrapped.kind = if value then .trueWord else .falseWord
  | .null, t => t.unwrapped.kind = .null
  | .undefined, t => t.unwrapped.kind = .undefined
  | .array items, t => t.unwrapped.kind = .array ∧ items.AreAt t.unwrapped.parts
  | .object pairs, t => t.unwrapped.kind = .object ∧ pairs.AreAt t.unwrapped.parts

def Items.AreAt : Items → List Tree → Prop
  | .nil, ts => ts = []
  | .hole rest, ts => rest.AreAt ts
  | .item first rest, ts => ∃ t us, ts = t :: us ∧ first.IsAt t ∧ rest.AreAt us

def Pairs.AreAt : Pairs → List Tree → Prop
  | .nil, ts => ts = []
  | .pair key value rest, ts =>
    ∃ t us k v, ts = t :: us ∧ t.kind = .pair ∧ t.child? .key = some k ∧ t.child? .value = some v ∧
      key.IsAt source k ∧ value.IsAt v ∧ rest.AreAt us

end

end Place

end ViewForge.Script
