import ViewForge.Text.Letter

namespace ViewForge.Markup

open Text

/-- A free name at a place in the source of an expression; `shorthand` marks an object property
that is both key and value. -/
structure Ref where
  offset : Nat
  name : Text
  shorthand : Bool := false
  deriving DecidableEq, Repr

/-- A parameter of a function; a pattern has no name. In its place may stand a node of another
class, `foreign`, which has none to ask for. -/
structure Param where
  name : Option Text
  source : Text
  foreign : Option Text := none
  deriving DecidableEq, Repr

inductive LogicalOp where
  | and
  | or
  | coalesce
  deriving DecidableEq, Repr

inductive LiteralKind where
  | string
  | template
  | number
  | boolean (value : Bool)
  | null
  | undefined
  | regex
  deriving DecidableEq, Repr

mutual

/-- Expressions. `misplaced` stands for a node of another class in the place of an
expression. -/
inductive Expr where
  | identifier (source : Text) (refs : List Ref) (name : Text)
  | member (source : Text) (refs : List Ref) (root : Option Text)
  | conditional (source : Text) (refs : List Ref) (test consequent alternate : Expr)
  | logical (source : Text) (refs : List Ref) (operator : LogicalOp) (left right : Expr)
  | call (source : Text) (refs : List Ref) (callee : Expr) (arguments : List Expr)
      (method : Option Text) (receiver : Option Expr)
  | function (source : Text) (refs : List Ref) (params : List Param) (body : Option Expr)
      (block : Option Text)
  | literal (source : Text) (refs : List Ref) (kind : LiteralKind)
  | markup (source : Text) (refs : List Ref) (node : Node)
  | other (source : Text) (refs : List Ref) (kind : Text)
  | misplaced (kind : Text)

inductive Value where
  | string (value : Text)
  | expression (expression : Option Expr)
  | unsupported (kind source : Text)
  | misplaced (kind : Text)

/-- Attributes. A node of another class in the place of one may have a name. -/
inductive Attribute where
  | named (name : Text) (value : Option Value)
  | spread (argument : Expr)
  | misplaced (kind : Text) (name : Option Text)

/-- What stands between tags: elements, fragments, text and expressions in braces. -/
inductive Node where
  | element (tag : Text) (attributes : List Attribute) (children : List Node)
      (selfClosing : Bool)
  | fragment (children : List Node)
  | text (value : Text)
  | container (expression : Option Expr)
  | unsupported (kind source : Text)
  | misplaced (kind : Text)

end

namespace Expr

def source : Expr → Text
  | .identifier s .. | .member s .. | .conditional s .. | .logical s .. | .call s ..
  | .function s .. | .literal s .. | .markup s .. | .other s .. => s
  | .misplaced _ => []

def refs : Expr → List Ref
  | .identifier _ r .. | .member _ r .. | .conditional _ r .. | .logical _ r .. | .call _ r ..
  | .function _ r .. | .literal _ r .. | .markup _ r .. | .other _ r .. => r
  | .misplaced _ => []

end Expr

/-- What a text reads when the names in it that have a replacement are replaced; everything
before `cursor` is already written. -/
def substituteFrom (source : Text) (replacement : Text → Option Text) (cursor : Nat) :
    List Ref → Text
  | [] => source.drop cursor
  | ref :: rest =>
    match replacement ref.name with
    | none => substituteFrom source replacement cursor rest
    | some new =>
      (source.take ref.offset).drop cursor ++
        (if ref.shorthand then ref.name ++ [':', ' '] ++ new else new) ++
        substituteFrom source replacement (ref.offset + ref.name.length) rest

def Expr.substitute (e : Expr) (replacement : Text → Option Text) : Text :=
  substituteFrom e.source replacement 0 e.refs

structure Element where
  tag : Text
  attributes : List Attribute
  children : List Node
  selfClosing : Bool

namespace Node

def children : Node → List Node
  | .element _ _ cs _ | .fragment cs => cs
  | _ => []

def isRoot : Node → Bool
  | .element .. | .fragment _ => true
  | _ => false

def rootElement? : Node → Option Element
  | .element tag attributes children selfClosing => some ⟨tag, attributes, children, selfClosing⟩
  | .fragment children => children.findSome? fun
    | .element tag attributes cs selfClosing => some ⟨tag, attributes, cs, selfClosing⟩
    | _ => none
  | _ => none

end Node

mutual

/-- Every element of a node in document order, those inside expressions included. -/
def Node.elements : Node → List Element
  | .element tag attributes children selfClosing =>
    ⟨tag, attributes, children, selfClosing⟩ ::
      (attributeElements attributes ++ nodesElements children)
  | .fragment children => nodesElements children
  | .container (some e) => e.elements
  | _ => []

def nodesElements : List Node → List Element
  | [] => []
  | n :: r => n.elements ++ nodesElements r

def attributeElements : List Attribute → List Element
  | [] => []
  | .named _ (some (.expression (some e))) :: r => e.elements ++ attributeElements r
  | _ :: r => attributeElements r

def Expr.elements : Expr → List Element
  | .markup _ _ node => node.elements
  | .conditional _ _ test consequent alternate =>
    test.elements ++ consequent.elements ++ alternate.elements
  | .logical _ _ _ left right => left.elements ++ right.elements
  | .call _ _ callee arguments _ _ => callee.elements ++ exprsElements arguments
  | .function _ _ _ (some body) _ => body.elements
  | _ => []

def exprsElements : List Expr → List Element
  | [] => []
  | e :: r => e.elements ++ exprsElements r

end

end ViewForge.Markup
