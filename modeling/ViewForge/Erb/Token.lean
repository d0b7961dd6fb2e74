import ViewForge.Text.Letter

namespace ViewForge.Erb

open Text

inductive TokenKind where
  | text
  | openTag
  | closeTag
  | htmlComment
  | comment
  | output
  | code
  deriving DecidableEq, Repr

structure Token where
  kind : TokenKind
  text : Text
  deriving DecidableEq, Repr

def isQuote (c : Char) : Bool := c == '"' || c == '\''

def lengthThrough (pat : Text) : Text → Option Nat
  | [] => none
  | c :: r =>
    if pat.isPrefixOf (c :: r) then some pat.length
    else (lengthThrough pat r).map (· + 1)

def startsDirective (t : Text) : Bool := startsWith t "<%"

def startsHtmlComment (t : Text) : Bool := startsWith t "<!--"

def startsTag : Text → Bool
  | '<' :: '/' :: c :: _ => isAsciiLetter c
  | '<' :: c :: _ => isAsciiLetter c
  | _ => false

def startsMarkup (t : Text) : Bool := startsDirective t || startsHtmlComment t || startsTag t

/-- How many characters there are up to the end of the first `%>` outside a Ruby string;
`quote` is the quote of the string the scan is in. -/
def codeLength : Option Char → Text → Option Nat
  | _, [] => none
  | some _, '\\' :: [] => none
  | some q, '\\' :: _ :: r => (codeLength (some q) r).map (· + 2)
  | some q, c :: r => (codeLength (if c == q then none else some q) r).map (· + 1)
  | none, c :: r =>
    if isQuote c then (codeLength (some c) r).map (· + 1)
    else if startsWith (c :: r) "%>" then some 2
    else (codeLength none r).map (· + 1)

def directiveKind (t : Text) : TokenKind :=
  match t[2]? with
  | some '#' => .comment
  | some '=' => .output
  | _ => .code

/-- The length of the directive that `t` begins with. A `%>` inside a string does not end it,
unless the strings never close; without any `%>` it takes all that is left. -/
def directiveLength (t : Text) : Nat :=
  match lengthThrough "%>" (t.drop 2) with
  | none => t.length
  | some first =>
    match directiveKind t with
    | .comment => first + 2
    | _ => (codeLength none (t.drop 2)).getD first + 2

/-- The length of a tag after its `<`. Directives are passed over whole, `skip` characters of
the present one being left; a `>` inside a quoted value does not end the tag. -/
def tagLength : Nat → Option Char → Text → Nat
  | _, _, [] => 0
  | k + 1, q, _ :: r => tagLength k q r + 1
  | 0, q, c :: r =>
    if startsDirective (c :: r) then tagLength (directiveLength (c :: r) - 1) q r + 1
    else
      match q with
      | some d => tagLength 0 (if c == d then none else some d) r + 1
      | none =>
        if isQuote c then tagLength 0 (some c) r + 1
        else if c == '>' then 1
        else tagLength 0 none r + 1

def htmlCommentLength (t : Text) : Nat :=
  match lengthThrough "-->" (t.drop 4) with
  | none => t.length
  | some n => n + 4

def textLength : Text → Nat
  | [] => 0
  | c :: r => if startsMarkup (c :: r) then 0 else textLength r + 1

def lexeme (t : Text) : TokenKind × Nat :=
  if startsDirective t then (directiveKind t, directiveLength t)
  else if startsHtmlComment t then (.htmlComment, htmlCommentLength t)
  else if startsTag t then
    (if t[1]? == some '/' then .closeTag else .openTag, tagLength 0 none (t.drop 1) + 1)
  else (.text, textLength (t.drop 1) + 1)

/-- The tokens of a text from which `skip` characters of a token already cut are left. -/
def tokenizeFrom : Nat → Text → List Token
  | _, [] => []
  | k + 1, _ :: r => tokenizeFrom k r
  | 0, c :: r =>
    let (kind, n) := lexeme (c :: r)
    ⟨kind, (c :: r).take n⟩ :: tokenizeFrom (n - 1) r

def tokenize (template : Text) : List Token := tokenizeFrom 0 template

def render (tokens : List Token) : Text := tokens.flatMap (·.text)

namespace Token

def isDirective (token : Token) : Bool := token.kind == .output || token.kind == .code

/-- The Ruby code of a directive, without delimiters, marker and trim mark. -/
def code (token : Token) : Text :=
  let body := (token.text.drop 2).take (token.text.length - 4)
  let body :=
    match body with
    | '=' :: r | '#' :: r | '-' :: r => r
    | r => r
  strip (if endsWith body "-" then body.dropLast else body)

end Token

end ViewForge.Erb
