import ViewForge.Component.Basic
import ViewForge.Ruby.Literal
import ViewForge.Source.Tree

set_option linter.unusedVariables false

namespace ViewForge.Ruby

open Text Source

def unescapeQuotes (t : Text) : Text :=
  replace ['\\', Char.ofNat 96] [Char.ofNat 96] (replace "\\\"" "\"" (replace "\\'" "'" t))

def inside (t : Text) : Text := (t.drop 1).dropLast

def keyName (source : Text) (key : Tree) : Text :=
  let t := key.textIn source
  if key.kind == .string then inside t
  else if key.kind == .computedKey then trim (fun c ↦ c == '[' || c == ']') t
  else t

def hashPair (key value : Text) : Text :=
  (if isIdentifier key then key else quoted key) ++ ": " ++ value

/-- A string literal, or a template without substitutions. -/
def stringOf? (source : Text) (t : Tree) : Option Text :=
  if t.children.any (·.kind == .substitution) then none
  else some (quoted (unescapeQuotes (inside (t.textIn source))))

def negativeOf? (source : Text) (t : Tree) : Option Text :=
  let text := t.textIn source
  if startsWith text "-" && t.parts.map Tree.kind == [.number] then some (text.filter (· != ' '))
  else none

mutual

/-- The Ruby literal for an expression made of literals only. -/
def literalOf? (source : Text) (t : Tree) : Option Text :=
  let target := t.unwrapped
  match target.kind with
  | .string => stringOf? source target
  | .template => stringOf? source target
  | .number => some (target.textIn source)
  | .unary => negativeOf? source target
  | .trueWord => some "true"
  | .falseWord => some "false"
  | .null => some "nil"
  | .undefined => some "nil"
  | .array => (itemsOf? source target.parts).map fun items ↦ "[" ++ join ", " items ++ "]"
  | .object => (pairsOf? source target.parts).map fun pairs ↦
      if pairs.isEmpty then "\x7b\x7d" else "\x7b " ++ join ", " pairs ++ " \x7d"
  | _ => none
termination_by 2 * t.size
decreasing_by
  all_goals
    have h₁ := t.size_unwrapped_le
    have h₂ := t.unwrapped.sizes_parts_lt
    omega

def itemsOf? (source : Text) : List Tree → Option (List Text)
  | [] => some []
  | t :: rest => do
    let item ← literalOf? source t
    let more ← itemsOf? source rest
    return item :: more
termination_by ts => 2 * Tree.sizes ts + 1
decreasing_by
  · rw [Tree.sizes]
    omega
  · rw [Tree.sizes, t.size_eq]
    omega

def pairsOf? (source : Text) : List Tree → Option (List Text)
  | [] => some []
  | t :: rest =>
    match hk : t.child? .key, hv : t.child? .value with
    | some key, some value =>
      if t.kind == .pair && (key.kind == .propertyIdentifier || key.kind == .string) then do
        let literal ← literalOf? source value
        let more ← pairsOf? source rest
        return hashPair (keyName source key) literal :: more
      else none
    | _, _ => none
termination_by ts => 2 * Tree.sizes ts + 1
decreasing_by
  · have := Tree.size_lt_of_child? hv
    rw [Tree.sizes]
    omega
  · rw [Tree.sizes, t.size_eq]
    omega

end

end ViewForge.Ruby

namespace ViewForge

open Text Source

/-- The kind of value that a default shows, and the Ruby literal for it; lists and hashes with
other entries stay empty. -/
def inferDefault (source : Text) (t : Tree) : ValueType × Option Text :=
  let literal := Ruby.literalOf? source t
  let typed (type : ValueType) : ValueType × Option Text :=
    if literal.isSome then (type, literal) else (.any, none)
  match t.unwrapped.kind with
  | .string | .template => typed .string
  | .number | .unary => typed .number
  | .trueWord | .falseWord => (.boolean, literal)
  | .null | .undefined => (.any, literal)
  | .array => (.array, some (literal.getD "[]"))
  | .object => (.object, some (literal.getD "\x7b\x7d"))
  | _ => (.any, none)

end ViewForge
