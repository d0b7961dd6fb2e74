import ViewForge.Source.Binding

namespace ViewForge.Source

open Text Reader

variable (self : Parts)

def signature : Reader (List Tree) := do
  let bounds ← ifPresent (do typedOnly; typeParameters self)
  let parameters ← self .parameters
  let result ← ifPresent (resultType self)
  return bounds ++ [parameters.withRole .parameters] ++ result

def functionBody : Reader Tree := do return (← self .block).withRole .body

/-- A function with its keyword. Whether it is a generator decides its kind, as does the name
where only named functions are declarations. -/
def functionWord (kindOf : (generator named : Bool) → Kind) : Reader Tree := do
  let _ ← skipGap
  let start ← position
  let _ ← attempt (do word "async"; guardThat ((← peekWord) == "function".toList))
  word "function"
  let star ← attempt (punct "*")
  let name ← ifPresent (do return [(← identifier).withRole .name])
  let signature ← signature self
  let body ← functionBody self
  return .node (kindOf star.isSome !name.isEmpty) .none start (← position)
    (name ++ signature ++ [body])

def functionExpression : Reader Tree :=
  functionWord self fun generator _ ↦ if generator then .generatorFunction else .functionExpression

/-- A declared function; without a name, which a default export allows, it is an expression. -/
def functionDeclaration : Reader Tree :=
  functionWord self fun generator named ↦
    match generator, named with
    | true, true => .generatorDeclaration
    | false, true => .functionDeclaration
    | true, false => .generatorFunction
    | false, false => .functionExpression

def arrowSignature (context : Context) : Reader (List Tree) :=
  (do
    let name ← identifier
    return [name.withRole .parameter])
  <|> (do
    let bounds ← ifPresent (do typedOnly; typeParameters self)
    let parameters ← self .parameters
    let result ← if context.untyped then pure [] else ifPresent (resultType self)
    return bounds ++ [parameters.withRole .parameters] ++ result)

def arrowFunction (context : Context) : Reader Tree := spanned .arrow do
  let parameters ←
    (do
      word "async"
      sameLine
      let parameters ← arrowSignature self context
      punct "=>"
      return parameters)
    <|> (do
      let parameters ← arrowSignature self context
      punct "=>"
      return parameters)
  let body ← if ← nextIs "\x7b" then self .block else self (.assignment context)
  return parameters ++ [body.withRole .body]

/-- Words before a member. A word is one only if the name of a member follows it. -/
def memberModifiers : List String :=
  ["static", "async", "get", "set", "readonly", "public", "private", "protected", "abstract",
   "override", "declare", "accessor"]

def memberModifier : Reader Unit := do
  oneOfWords memberModifiers
  let _ ← lookAhead (punct "*" <|> (do let _ ← memberName self))

/-- A method of a class or an object. One without a body is only a signature. -/
def method : Reader Tree := spanned .method do
  let _ ← many (memberModifier self)
  let _ ← attempt (punct "*")
  let name ← memberName self
  let _ ← attempt (do typedOnly; punct "?")
  let signature ← signature self
  let body ← (do return [← functionBody self]) <|> (do typedOnly; endOfStatement; return [])
  return [name.withRole .name] ++ signature ++ body

def field : Reader Tree := spanned .clause do
  let _ ← many (memberModifier self)
  let name ← memberName self
  let _ ← attempt (do typedOnly; punct "?" <|> punct "!")
  let type ← ifPresent (declaredType self)
  let value ← ifPresent (do return [(← defaultValue self).withRole .value])
  endOfStatement
  return [name.withRole .name] ++ type ++ value

def staticBlock : Reader Tree := spanned .clause do
  word "static"
  return [← self .block]

def classMember : Reader Tree :=
  marked .clause (punct ";")
    <|> decorator self
    <|> staticBlock self
    <|> method self
    <|> field self
    <|> spanned .clause (do
      typedOnly
      let _ ← many (memberModifier self)
      let member ← indexMember self
      endOfStatement
      return member)

def heritage : Reader (List Tree) := do
  let base ← ifPresent (do
    word "extends"
    let base ← self .unary
    return base :: (← ifPresent (do typedOnly; typeArguments self)))
  let interfaces ← ifPresent (do
    typedOnly
    word "implements"
    let first ← self .type
    return first :: (← many (do punct ","; self .type)))
  return base ++ interfaces

/-- A class. Its name is a variable only in sources without types. -/
def classWord (kindOf : (named : Bool) → Kind) : Reader Tree := do
  let _ ← skipGap
  let start ← position
  let decorators ← many (decorator self)
  let _ ← attempt (do typedOnly; word "abstract")
  word "class"
  let typed ← isTyped
  let name ← ifPresent (do
    guardThat !((← nextIsWord "extends") || (← nextIsWord "implements"))
    return [(← identifier (if typed then .typeExpression else .identifier)).withRole .name])
  let bounds ← ifPresent (do typedOnly; typeParameters self)
  let heritage ← heritage self
  punct "\x7b"
  let members ← many (classMember self)
  punct "\x7d"
  return .node (kindOf !name.isEmpty) .none start (← position)
    (decorators ++ name ++ bounds ++ heritage ++ members)

end ViewForge.Source
