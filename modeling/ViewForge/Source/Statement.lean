import ViewForge.Source.Expression

namespace ViewForge.Source

open Text Reader

variable (self : Parts)

/-- Skips what cannot be read as a statement: the rest of its line, or up to a semicolon. -/
def skipStatement : Reader Tree := do
  let _ ← skipGap
  noteFlaw
  let t ← rest
  stretch .error (min t.length ((t.takeWhile fun c ↦ c != ';' && c != '\n').length + 1))

/-- Statements up to a place where `finished` holds. One that cannot be read is skipped. -/
def statementsUpTo (finished : Reader Bool) : Nat → Reader (List Tree)
  | 0 => failure
  | n + 1 => do
    if ← finished then return []
    else
      let t ← self .statement <|> skipStatement
      return t :: (← statementsUpTo finished n)

def atEnd : Reader Bool := lookAhead do
  let _ ← skipGap
  return (← rest).isEmpty

def statements (finished : Reader Bool) : Reader (List Tree) := do
  statementsUpTo self (do return (← atEnd) || (← finished)) ((← rest).length + 1)

def blockRule : Reader Tree := spanned .block do
  punct "\x7b"
  let inner ← statements self (nextIs "\x7d")
  punct "\x7d"
  return inner

def declarator (context : Context) : Reader Tree := spanned .declarator do
  let name ← self .pattern
  let _ ← attempt (do typedOnly; punct "!")
  let type ← ifPresent (declaredType self)
  let value ← ifPresent (do
    equalsSign
    return [(← self (.assignment context)).withRole .value])
  return [name.withRole .name] ++ type ++ value

/-- Declared variables, without the end of the statement. -/
def declaredNames (context : Context) : Reader (List Tree) := do
  oneOfWords ["const", "let", "var"]
  let first ← declarator self context
  return first :: (← many (do punct ","; declarator self context))

def variableStatement : Reader Tree := spanned .statement do
  let names ← declaredNames self {}
  endOfStatement
  return names

def expressionStatement : Reader Tree := spanned .statement do
  let value ← self.anyValue
  endOfStatement
  return [value]

def condition : Reader Tree := parenthesized self

def ifStatement : Reader Tree := spanned .statement do
  word "if"
  let test ← condition self
  let yes ← self .statement
  let no ← ifPresent (do word "else"; return [← self .statement])
  return [test, yes] ++ no

def iteration : Reader (List Tree) := do
  let _ ← attempt (oneOfWords ["const", "let", "var"])
  let target ← self .pattern <|> self .unary
  oneOfWords ["of", "in"]
  let range ← self.anyValue
  return [target.withRole .left, range.withRole .right]

/-- A loop with a start, a condition and a step, each of which may be missing. -/
def countedLoop : Reader (List Tree) := do
  let start ← ifPresent
    (declaredNames self { noIn := true } <|> (do return [← self (.expression { noIn := true })]))
  punct ";"
  let test ← ifPresent (do return [← self.anyValue])
  punct ";"
  let step ← ifPresent (do return [← self.anyValue])
  return start ++ test ++ step

def forStatement : Reader Tree := spanned .statement do
  word "for"
  let _ ← attempt (word "await")
  punct "("
  let head ← (do
      let head ← iteration self
      punct ")"
      return head)
    <|> (do
      let head ← countedLoop self
      punct ")"
      return head)
  return head ++ [← self .statement]

def whileStatement : Reader Tree := spanned .statement do
  oneOfWords ["while", "with"]
  let test ← condition self
  return [test, ← self .statement]

def doStatement : Reader Tree := spanned .statement do
  word "do"
  let body ← self .statement
  word "while"
  let test ← condition self
  let _ ← attempt (punct ";")
  return [body, test]

def tryStatement : Reader Tree := spanned .statement do
  word "try"
  let body ← self .block
  let handler ← ifPresent (do
    word "catch"
    let parameter ← ifPresent (do
      punct "("
      let name ← self .pattern
      let type ← ifPresent (declaredType self)
      punct ")"
      return name :: type)
    return parameter ++ [← self .block])
  let last ← ifPresent (do word "finally"; return [← self .block])
  return [body] ++ handler ++ last

def switchCase : Reader Tree := spanned .clause do
  let value ← (do word "case"; return [← self.anyValue]) <|> (do word "default"; return [])
  punct ":"
  let finished := do
    return (← nextIs "\x7d") || (← nextIsWord "case") || (← nextIsWord "default")
  return value ++ (← statements self finished)

def switchStatement : Reader Tree := spanned .statement do
  word "switch"
  let value ← condition self
  punct "\x7b"
  let cases ← many (switchCase self)
  punct "\x7d"
  return value :: cases

def jumpStatement : Reader Tree := spanned .statement do
  let value ←
    (do
      oneOfWords ["return", "throw"]
      ifPresent (do return [← self.anyValue]))
    <|> (do
      oneOfWords ["break", "continue"]
      ifPresent (do sameLine; let _ ← identifier; return []))
    <|> (do word "debugger"; return [])
  endOfStatement
  return value

def labelledStatement : Reader Tree := spanned .statement do
  let _ ← identifier
  punct ":"
  return [← self .statement]

def importSpecifier : Reader Tree := spanned .importSpecifier do
  let _ ← attempt (do
    typedOnly
    oneOfWords ["type", "typeof"]
    let next ← peekWord
    guardThat (!next.isEmpty && next != "as".toList))
  let name ← anyWord .identifier <|> stringLiteral
  let otherName ← ifPresent (do word "as"; return [← anyWord .identifier])
  return name.withRole .name :: otherName

def fromClause : Reader Tree := do
  word "from"
  return (← stringLiteral).withRole .source

def importClause : Reader (List Tree) := do
  let whole := do
    punct "*"
    word "as"
    return [← identifier]
  let named := do
    punct "\x7b"
    items "\x7d" importSpecifier
  whole <|> named <|> (do
    let first ← identifier
    let more ← ifPresent (do punct ","; whole <|> named)
    return first :: more)

def importStatement : Reader Tree := spanned .importStatement do
  word "import"
  let taken (clause : Reader (List Tree)) : Reader (List Tree) := do
    let names ← clause
    return names ++ [← fromClause]
  let parts ←
    (do return [(← stringLiteral).withRole .source])
    <|> taken importClause
    <|> taken (do typedOnly; oneOfWords ["type", "typeof"]; importClause)
    <|> (do
      typedOnly
      let name ← identifier
      punct "="
      return [name, ← self.value])
  let _ ← attempt (do oneOfWords ["with", "assert"]; let _ ← object self)
  endOfStatement
  return parts

def exportSpecifier : Reader Tree := spanned .clause do
  let _ ← attempt (do
    typedOnly
    word "type"
    let next ← peekWord
    guardThat (!next.isEmpty && next != "as".toList))
  let name ← anyWord .identifier <|> stringLiteral
  let otherName ← ifPresent (do word "as"; return [← anyWord .identifier <|> stringLiteral])
  return name :: otherName

def exportedNames : Reader (List Tree) := do
  let _ ← attempt (do typedOnly; word "type")
  let names ←
    (do
      punct "*"
      ifPresent (do word "as"; return [← anyWord .identifier <|> stringLiteral]))
    <|> (do punct "\x7b"; items "\x7d" exportSpecifier)
  let source ← ifPresent (do return [← fromClause])
  endOfStatement
  return names ++ source

def classDeclaration : Reader Tree :=
  classWord self fun named ↦ if named then .classDeclaration else .classExpression

def defaultExport : Reader (List Tree) := do
  let mark ← marked .defaultWord (word "default")
  let value ← functionDeclaration self
    <|> classDeclaration self
    <|> (do typedOnly; guardThat (← nextIsWord "interface"); self .statement)
    <|> (do
      let value ← self.anyValue
      endOfStatement
      return value)
  return [mark, value]

def exportStatement : Reader Tree := spanned .exportStatement do
  let decorators ← many (decorator self)
  word "export"
  let exported ← defaultExport self
    <|> exportedNames
    <|> (do
      typedOnly
      punct "="
      let value ← self.anyValue
      endOfStatement
      return [value])
    <|> (do
      typedOnly
      word "as"
      word "namespace"
      let _ ← identifier
      endOfStatement
      return [])
    <|> (do return [← self .statement])
  return decorators ++ exported

def functionSignature : Reader Tree := spanned .statement do
  typedOnly
  let _ ← attempt (word "async")
  word "function"
  let _ ← attempt (punct "*")
  let name ← identifier
  let signature ← signature self
  endOfStatement
  return name :: signature

def typeHead : Reader (List Tree) := do
  sameLine
  let _ ← identifier .typeExpression
  ifPresent (typeParameters self)

def typeStatement : Reader Tree := spanned .statement do
  word "type"
  let bounds ← typeHead self
  punct "="
  let type ← self .type
  endOfStatement
  return bounds ++ [type]

def interfaceStatement : Reader Tree := spanned .statement do
  word "interface"
  let bounds ← typeHead self
  let bases ← ifPresent (do
    word "extends"
    let first ← self .type
    return first :: (← many (do punct ","; self .type)))
  return bounds ++ bases ++ (← objectType self)

def enumStatement : Reader Tree := spanned .statement do
  let _ ← attempt (word "const")
  word "enum"
  let name ← identifier
  punct "\x7b"
  let members ← items "\x7d" <| spanned .clause do
    let name ← memberName self
    let value ← ifPresent (do return [← defaultValue self])
    return name :: value
  return name :: members

def namespaceStatement : Reader Tree := spanned .statement do
  oneOfWords ["namespace", "module", "global"]
  let _ ← attempt (do
    sameLine
    let _ ← stringLiteral <|> identifier
    let _ ← many (do punct "."; anyWord .propertyIdentifier))
  return [← self .block]

def ambientStatement : Reader Tree := spanned .statement do
  word "declare"
  sameLine
  return [← self .statement]

/-- Declarations of types and of what only has a type. -/
def typedStatement : Reader Tree := do
  typedOnly
  functionSignature self
    <|> typeStatement self
    <|> interfaceStatement self
    <|> enumStatement self
    <|> ambientStatement self
    <|> namespaceStatement self

def statementRule : Reader Tree :=
  self .block
    <|> marked .statement (punct ";")
    <|> importStatement self
    <|> exportStatement self
    <|> typedStatement self
    <|> variableStatement self
    <|> functionDeclaration self
    <|> classDeclaration self
    <|> ifStatement self
    <|> forStatement self
    <|> whileStatement self
    <|> doStatement self
    <|> tryStatement self
    <|> switchStatement self
    <|> jumpStatement self
    <|> labelledStatement self
    <|> expressionStatement self

end ViewForge.Source
