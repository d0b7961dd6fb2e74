import ViewForge.Source.TypeGrammar

namespace ViewForge.Source

open Text Reader

variable (self : Parts)

def defaultValue : Reader Tree := do
  punct "="
  self.value

def restPattern : Reader Tree := spanned .restPattern do
  punct "..."
  return [← self .pattern]

def defaultedPattern : Reader Tree := do
  let target ← self .pattern
  match ← attempt (defaultValue self) with
  | none => return target
  | some value =>
    return .node .assignmentPattern .none target.start (← position)
      [target.withRole .left, value.withRole .right]

/-- An entry of an object pattern: the rest, a key with a pattern, or a name that is both. -/
def objectEntry : Reader Tree :=
  restPattern self
    <|> spanned .pairPattern (do
      let key ← memberName self
      punct ":"
      let value ← defaultedPattern self
      return [key.withRole .key, value.withRole .value])
    <|> spanned .objectAssignmentPattern (do
      let name ← identifier .shorthandPattern
      let value ← defaultValue self
      return [name.withRole .left, value.withRole .right])
    <|> identifier .shorthandPattern

def objectPattern : Reader Tree := spanned .objectPattern do
  punct "\x7b"
  items "\x7d" (objectEntry self)

def arrayPattern : Reader Tree := spanned .arrayPattern do
  punct "["
  items "]" (restPattern self <|> defaultedPattern self)

def patternRule : Reader Tree := objectPattern self <|> arrayPattern self <|> identifier

/-- A mark before a class or one of its members. -/
def decorator : Reader Tree := spanned .clause do
  punct "@"
  return [← self .unary]

def parameterModifier : Reader Unit := do
  oneOfWords ["public", "private", "protected", "override", "readonly"]
  let next ← lookAhead (do let _ ← skipGap; rest)
  guardThat (next.head?.any fun c ↦ isIdentStart c || c == '[' || c == '{')

def typedParameter : Reader Tree := do
  let _ ← skipGap
  let start ← position
  let decorators ← many (decorator self)
  let _ ← many parameterModifier
  let target ← restPattern self <|> marked .this (word "this") <|> self .pattern
  let optionalMark ← attempt (punct "?")
  let type ← ifPresent (declaredType self)
  let value ← ifPresent (do return [(← defaultValue self).withRole .value])
  let kind := if optionalMark.isSome then Kind.optionalParameter else .requiredParameter
  return .node kind .none start (← position)
    (decorators ++ [target.withRole .pattern] ++ type ++ value)

def parametersRule : Reader Tree := spanned .parameters do
  punct "("
  if ← isTyped then items ")" (typedParameter self)
  else items ")" (restPattern self <|> defaultedPattern self)

end ViewForge.Source
