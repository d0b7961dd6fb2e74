import ViewForge.Source.Grammar

namespace ViewForge.Source

open Text Reader

variable (self : Parts)

def typeArguments : Reader (List Tree) := do
  punct "<"
  items ">" (self .type)

/-- Parameters of a declaration: names with an optional bound and an optional default. -/
def typeParameters : Reader (List Tree) := do
  punct "<"
  items ">" <| spanned .typeExpression do
    let _ ← attempt (do oneOfWords ["const", "in", "out"]; guardThat !(← peekWord).isEmpty)
    let _ ← anyWord .operator
    let bound ← ifPresent (do word "extends"; return [← self .type])
    let default ← ifPresent (do punct "="; return [← self .type])
    return bound ++ default

def declaredType : Reader (List Tree) := do
  typedOnly
  punct ":"
  return [← self .type]

def typePredicate : Reader Tree := spanned .typeExpression do
  let asserted ← attempt (do word "asserts"; guardThat !(← peekWord).isEmpty; sameLine)
  let name ← (do word "this"; pure []) <|> (do return [← identifier])
  let type ← (do word "is"; return [← self .type]) <|> (do guardThat asserted.isSome; pure [])
  return name ++ type

def resultType : Reader (List Tree) := do
  typedOnly
  punct ":"
  return [← typePredicate self <|> self .type]

def typeName : Reader (List Tree) := do
  let first ← anyWord .identifier
  let inner ← many (do
    punct "."
    anyWord .propertyIdentifier)
  return if inner.isEmpty then [] else [first]

def typeQuery : Reader (List Tree) := do
  word "typeof"
  let first ← (do word "import"; punct "("; items ")" (self .type))
    <|> (do word "this"; pure [])
    <|> (do return [← identifier])
  let _ ← many (do punct "."; anyWord .propertyIdentifier)
  return first ++ (← ifPresent (do sameLine; typeArguments self))

def functionType : Reader (List Tree) := do
  let _ ← attempt (word "abstract")
  let _ ← attempt (word "new")
  let bounds ← ifPresent (typeParameters self)
  let parameters ← self .parameters
  punct "=>"
  return bounds ++ [parameters, ← typePredicate self <|> self .type]

def memberName : Reader Tree :=
  anyWord .propertyIdentifier
    <|> stringLiteral
    <|> numberLiteral
    <|> spanned .privateIdentifier (do
      exactly ['#']
      let _ ← anyWord .operator
      return [])
    <|> spanned .computedKey (do
      punct "["
      let key ← self (.assignment {})
      punct "]"
      return [key])

def indexMember : Reader (List Tree) := do
  let _ ← attempt (do (punct "+" <|> punct "-"); word "readonly")
  let _ ← attempt (word "readonly")
  punct "["
  let inner ← (do
      let name ← identifier
      punct ":"
      return [name, ← self .type])
    <|> (do
      let _ ← anyWord .operator
      word "in"
      let range ← self .type
      return range :: (← ifPresent (do word "as"; return [← self .type])))
  punct "]"
  let _ ← attempt (do (punct "+" <|> punct "-"); punct "?")
  let _ ← attempt (punct "?")
  return inner ++ (← ifPresent (declaredType self))

def methodMember : Reader (List Tree) := do
  let _ ← attempt (do oneOfWords ["get", "set"]; let _ ← lookAhead (memberName self))
  let _ ← attempt (word "new" <|> (do let _ ← memberName self))
  let _ ← attempt (punct "?")
  let bounds ← ifPresent (typeParameters self)
  let parameters ← self .parameters
  return bounds ++ [parameters] ++ (← ifPresent (resultType self))

def propertyMember : Reader (List Tree) := do
  let _ ← attempt (do word "readonly"; let _ ← lookAhead (memberName self))
  let name ← memberName self
  let _ ← attempt (punct "?")
  return name :: (← ifPresent (declaredType self))

/-- The members of an object type, each with a comma, a semicolon or nothing behind it. -/
def objectType : Reader (List Tree) := do
  punct "\x7b"
  let members ← many <| spanned .typeExpression do
    let member ← indexMember self <|> methodMember self <|> propertyMember self
    let _ ← attempt (punct "," <|> punct ";")
    return member
  punct "\x7d"
  return members

def tupleEntry : Reader Tree := spanned .typeExpression do
  let _ ← attempt (punct "...")
  (do
    let name ← identifier
    let _ ← attempt (punct "?")
    punct ":"
    return [name, ← self .type])
  <|> (do
    let entry ← self .type
    let _ ← attempt (punct "?")
    return [entry])

def typeTemplateLength : Text → Option Nat
  | [] => none
  | '\\' :: [] => none
  | '\\' :: _ :: r => (typeTemplateLength r).map (· + 2)
  | c :: r => if c.toNat == 96 then some 1 else (typeTemplateLength r).map (· + 1)

def templateType : Reader Unit := do
  let _ ← skipGap
  exactly [Char.ofNat 96]
  let some n := typeTemplateLength (← rest) | failure
  advance n

def primaryType : Reader (List Tree) :=
  functionType self
    <|> (do
      punct "("
      let inner ← self .type
      punct ")"
      return [inner])
    <|> objectType self
    <|> (do punct "["; items "]" (tupleEntry self))
    <|> (do let _ ← stringLiteral; pure [])
    <|> (do let _ ← attempt (punct "-"); let _ ← numberLiteral; pure [])
    <|> (do templateType; pure [])
    <|> typeQuery self
    <|> (do
      word "import"
      punct "("
      let argument ← items ")" (self .type)
      let _ ← many (do punct "."; anyWord .propertyIdentifier)
      return argument ++ (← ifPresent (typeArguments self)))
    <|> (do
      let name ← typeName
      return name ++ (← ifPresent (do sameLine; typeArguments self)))

def postfixType : Reader (List Tree) := do
  let first ← primaryType self
  let more ← many <| spanned .typeExpression do
    sameLine
    punct "["
    let index ← ifPresent (do return [← self .type])
    punct "]"
    return index
  return first ++ more

def typeOperators : List String := ["keyof", "readonly", "unique", "infer"]

/-- Operators before a type. A word is one only if a type follows it. -/
def prefixedType : Reader (List Tree) := do
  let _ ← many (do
    oneOfWords typeOperators
    let next ← lookAhead (do let _ ← skipGap; rest)
    guardThat (next.head?.any fun c ↦ isIdentStart c || "(\x7b[\"'-".toList.contains c)
    guardThat ((wordOf next) != "extends".toList)
    pure ())
  postfixType self

/-- Types with an operator between them, which may also stand before the first. -/
def joinedTypes (mark : String) (operand : Reader (List Tree)) : Reader (List Tree) := do
  let _ ← attempt (punct mark)
  let first ← operand
  let more ← many <| spanned .typeExpression do
    punct mark
    operand
  return first ++ more

def unionType : Reader (List Tree) :=
  joinedTypes "|" (joinedTypes "&" (prefixedType self))

def typeRule : Reader Tree := spanned .typeExpression do
  let first ← unionType self
  let choice ← ifPresent (do
    word "extends"
    let bound ← spanned .typeExpression (unionType self)
    punct "?"
    let yes ← self .type
    punct ":"
    return [bound, yes, ← self .type])
  return first ++ choice

end ViewForge.Source
