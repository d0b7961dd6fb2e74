import ViewForge.Source.Function
import ViewForge.Source.Element

namespace ViewForge.Source

open Text Reader

variable (self : Parts)

def templateTextLength : Text → Nat
  | '\\' :: _ :: r => templateTextLength r + 2
  | '$' :: '{' :: _ => 0
  | c :: r => if c.toNat == 96 then 0 else templateTextLength r + 1
  | [] => 0

def substitution : Reader Tree := spanned .substitution do
  exactly ['$', '{']
  let inner ← self.anyValue
  punct "\x7d"
  return [inner]

def templateUpTo : Nat → Reader (List Tree)
  | 0 => failure
  | n + 1 => do
    advance (templateTextLength (← rest))
    match ← rest with
    | '$' :: _ => do
      let inner ← substitution self
      return inner :: (← templateUpTo n)
    | _ => do
      exactly [Char.ofNat 96]
      return []

def template : Reader Tree := spanned .template do
  exactly [Char.ofNat 96]
  templateUpTo self ((← rest).length + 1)

def spreadElement : Reader Tree := spanned .spread do
  punct "..."
  return [← self.value]

def array : Reader Tree := spanned .array do
  punct "["
  items "]" (spreadElement self <|> self.value)

/-- A member of an object: a spread, a pair, a method, or a name that is both key and value. -/
def objectMember : Reader Tree :=
  spreadElement self
    <|> spanned .pair (do
      let key ← memberName self
      punct ":"
      let value ← self.value
      return [key.withRole .key, value.withRole .value])
    <|> method self
    <|> identifier .shorthandProperty

def object : Reader Tree := spanned .object do
  punct "\x7b"
  items "\x7d" (objectMember self)

def parenthesized : Reader Tree := spanned .parenthesized do
  punct "("
  let inner ← self.anyValue
  let type ← ifPresent (declaredType self)
  punct ")"
  return inner :: type

def argumentList : Reader Tree := spanned .arguments do
  punct "("
  items ")" (spreadElement self <|> self.value)

def wordExpressions : List (String × Kind) :=
  [("this", .this), ("super", .super), ("null", .null), ("true", .trueWord),
   ("false", .falseWord), ("undefined", .undefined)]

def wordExpression : Reader Tree := do
  let w ← peekWord
  match wordExpressions.find? (·.1.toList == w) with
  | some (_, kind) => anyWord kind
  | none => failure

def simpleExpression : Reader Tree :=
  wordExpression
    <|> functionExpression self
    <|> classWord self (fun _ ↦ .classExpression)
    <|> identifier
    <|> numberLiteral
    <|> stringLiteral
    <|> template self
    <|> regexLiteral
    <|> array self
    <|> object self
    <|> parenthesized self
    <|> self .element
    <|> spanned .privateIdentifier (do
      exactly ['#']
      let _ ← anyWord .operator
      return [])

def propertyName : Reader Tree :=
  anyWord .propertyIdentifier
    <|> spanned .privateIdentifier (do
      exactly ['#']
      let _ ← anyWord .operator
      return [])

def memberSuffix (base : Tree) : Reader Tree :=
  continued .member (base.withRole .object) do
    punct "?." <|> (do punct "."; guardThat !((← rest).head? == some '.'))
    return [(← propertyName).withRole .property]

def subscriptSuffix (base : Tree) : Reader Tree :=
  continued .subscript (base.withRole .object) do
    let _ ← attempt (punct "?.")
    punct "["
    let index ← self.anyValue
    punct "]"
    return [index]

def callSuffix (base : Tree) : Reader Tree :=
  continued .call (base.withRole .function) do
    let _ ← attempt (punct "?.")
    let types ← ifPresent (do typedOnly; typeArguments self)
    let arguments ← argumentList self <|> template self
    return types ++ [arguments.withRole .arguments]

def nonNullSuffix (base : Tree) : Reader Tree :=
  continued .nonNull base do
    typedOnly
    sameLine
    punct "!"
    guardThat ((← rest).head? != some '=')
    return []

def suffix (calls : Bool) (base : Tree) : Reader Tree :=
  memberSuffix base
    <|> subscriptSuffix self base
    <|> nonNullSuffix base
    <|> (do guardThat calls; callSuffix self base)

def suffixesUpTo (calls : Bool) : Nat → Tree → Reader Tree
  | 0, base => pure base
  | n + 1, base => do
    match ← attempt (suffix self calls base) with
    | none => pure base
    | some more => suffixesUpTo calls n more

def withSuffixes (calls : Bool) (base : Tree) : Reader Tree := do
  suffixesUpTo self calls (← rest).length base

def metaProperty : Reader Tree := spanned .metaProperty do
  oneOfWords ["new", "import"]
  punct "."
  let _ ← anyWord .operator
  return []

def newUpTo : Nat → Reader Tree
  | 0 => failure
  | n + 1 => spanned .new do
    word "new"
    let base ← newUpTo n <|> (do withSuffixes self false (← simpleExpression self))
    let types ← ifPresent (do
      typedOnly
      let types ← typeArguments self
      guardThat (← nextIs "(")
      return types)
    let arguments ← ifPresent (do return [(← argumentList self).withRole .arguments])
    return base :: types ++ arguments

def newExpression : Reader Tree := do newUpTo self (← rest).length

def importCall : Reader Tree := do
  let base ← marked .importWord (word "import")
  callSuffix self base

def callExpression : Reader Tree := do
  let base ← metaProperty <|> newExpression self <|> importCall self <|> simpleExpression self
  withSuffixes self true base

def postfixExpression : Reader Tree := do
  let base ← callExpression self
  continued .update base (do
    sameLine
    punct "++" <|> punct "--"
    return [])
  <|> pure base

def unaryMark : Reader Unit := do
  let _ ← skipGap
  match ← rest with
  | c :: r => do
    guardThat ("!~-+".toList.contains c && !((c == '-' || c == '+') && r.head? == some c))
    advance 1
  | [] => failure

def unaryRule : Reader Tree :=
  spanned .unary (do
    unaryMark <|> oneOfWords ["typeof", "void", "delete"]
    return [← self .unary])
  <|> spanned .update (do
    punct "++" <|> punct "--"
    return [← self .unary])
  <|> spanned .await (do
    word "await"
    return [← self .unary])
  <|> postfixExpression self

/-- Operators between two expressions with their levels, each before those it begins with. -/
def binaryMarks : List (String × Nat) :=
  [(">>>", 10), ("===", 7), ("!==", 7), ("**", 13), ("==", 7), ("!=", 7), ("<=", 9), (">=", 9),
   ("<<", 10), (">>", 10), ("&&", 3), ("||", 2), ("??", 1), ("+", 11), ("-", 11), ("*", 12),
   ("/", 12), ("%", 12), ("&", 6), ("|", 4), ("^", 5), ("<", 9), (">", 9)]

/-- The operator that a text begins with. One that an equals sign follows assigns. -/
def binaryMark? (t : Text) : Option (String × Nat) :=
  if startsWith t ("++" : Text) || startsWith t ("--" : Text) then none
  else do
    let (mark, level) ← binaryMarks.find? fun (mark, _) ↦ startsWith t mark.toList
    let closed := level == 7 || mark == "<=" || mark == ">="
    if !closed && (t.drop mark.length).head? == some '=' then none else some (mark, level)

def binaryOperator (context : Context) : Reader (Tree × Nat) := do
  let _ ← skipGap
  match binaryMark? (← rest) with
  | some (mark, level) => return (← marked .operator (exactly mark.toList), level)
  | none => do
    guardThat !(context.noIn && (← nextIsWord "in"))
    return (← marked .operator (oneOfWords ["in", "instanceof"]), 8)

def typeClaim (left : Tree) : Reader Tree := do
  typedOnly
  sameLine
  continued .asExpression left (do word "as"; return [← self .type])
  <|> continued .satisfiesExpression left (do word "satisfies"; return [← self .type])

/-- The level that the right side of an operator has to bind tighter than; powers group to the
right. -/
def rightLevel (level : Nat) : Nat := if level == 13 then 12 else level

def operatorsUpTo (level : Nat) (context : Context) : Nat → Tree → Reader Tree
  | 0, left => pure left
  | n + 1, left => do
    let operation := continued .binary (left.withRole .left) do
      let (operator, found) ← binaryOperator context
      guardThat (level < found)
      let right ← self (.binary (rightLevel found) context)
      return [operator.withRole .operator, right.withRole .right]
    let claim := do
      guardThat (level == 0)
      typeClaim self left
    match ← attempt (operation <|> claim) with
    | none => pure left
    | some more => operatorsUpTo level context n more

def binaryRule (level : Nat) (context : Context) : Reader Tree := do
  let first ← self .unary
  operatorsUpTo self level context (← rest).length first

/-- The two choices behind a question mark. If the first cannot end before the colon with the
result type of a function in it, it is read without. -/
def choices (context : Context) : Reader (List Tree) := do
  punct "?"
  let after (yes : Context) : Reader (List Tree) := do
    let consequence ← self (.assignment yes)
    punct ":"
    let alternative ← self (.assignment context)
    return [consequence.withRole .consequence, alternative.withRole .alternative]
  after {} <|> (do typedOnly; after { untyped := true })

def conditional (context : Context) : Reader Tree := do
  let test ← self (.binary 0 context)
  continued .ternary (test.withRole .condition) (choices self context) <|> pure test

def assignmentMarks : List String :=
  [">>>=", "**=", "<<=", ">>=", "&&=", "||=", "??=", "+=", "-=", "*=", "/=", "%=", "&=", "|=", "^="]

def equalsSign : Reader Unit := do
  punct "="
  guardThat !((← rest).head?.any fun c ↦ c == '=' || c == '>')

def computedAssignment : Reader Unit := do
  let _ ← skipGap
  let t ← rest
  match assignmentMarks.find? (fun mark ↦ startsWith t mark.toList) with
  | some mark => advance mark.length
  | none => failure

def patternAssignment (context : Context) : Reader Tree := spanned .assignment do
  let target ← objectPattern self <|> arrayPattern self
  equalsSign
  let value ← self (.assignment context)
  return [target.withRole .left, value.withRole .right]

def yieldExpression (context : Context) : Reader Tree := spanned .yield do
  word "yield"
  let _ ← attempt (punct "*")
  ifPresent (do sameLine; return [← self (.assignment context)])

def assignmentRule (context : Context) : Reader Tree :=
  arrowFunction self context
    <|> yieldExpression self context
    <|> patternAssignment self context
    <|> (do
      let left ← conditional self context
      let assigned (kind : Kind) (mark : Reader Unit) : Reader Tree :=
        continued kind (left.withRole .left) do
          mark
          return [(← self (.assignment context)).withRole .right]
      assigned .assignment equalsSign
        <|> assigned .augmentedAssignment computedAssignment
        <|> pure left)

def expressionRule (context : Context) : Reader Tree := do
  let first ← self (.assignment context)
  let more ← many (do punct ","; self (.assignment context))
  if more.isEmpty then return first
  else return .node .sequence .none first.start (← position) (first :: more)

end ViewForge.Source
