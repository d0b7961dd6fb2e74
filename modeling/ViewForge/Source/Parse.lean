import ViewForge.Source.Statement

namespace ViewForge.Source

open Text Reader

def Rule.read (self : Parts) : Parts
  | .statement => statementRule self
  | .block => blockRule self
  | .expression context => expressionRule self context
  | .assignment context => assignmentRule self context
  | .binary level context => binaryRule self level context
  | .unary => unaryRule self
  | .pattern => patternRule self
  | .parameters => parametersRule self
  | .type => typeRule self
  | .element => elementRule self

def partsWithin : (depth : Nat) → Parts
  | 0, _ => failure
  | depth + 1, rule => rule.read (partsWithin depth)

def rulesPerCharacter : Nat := 8

def hashbangLength (t : Text) : Nat :=
  if startsWith t ("#!" : Text) then (t.takeWhile (· != '\n')).length else 0

def programRule (self : Parts) : Reader Tree := spanned .program do
  advance (hashbangLength (← rest))
  statements self (pure false)

/-- Reads a whole source. Parts are nested no deeper than the source is long. -/
def parse (path source : Text) (dialect : Dialect) : Parsed :=
  let depth := rulesPerCharacter * (source.length + 2)
  match programRule (partsWithin depth) { dialect := dialect, position := 0, rest := source } with
  | some (root, cursor) => ⟨path, source, root, cursor.flawed⟩
  | none => ⟨path, source, .node .program .none 0 source.length [], true⟩

end ViewForge.Source
