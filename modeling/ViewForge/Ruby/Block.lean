import ViewForge.Naming

namespace ViewForge.Ruby

open Text

inductive Stmt where
  | line (t : Text)
  | blank
  /-- A head, an indented body and an `end`. -/
  | block (head : Text) (body : List Stmt)
  /-- A head, branches at the same depth and an `end`. -/
  | branches (head : Text) (body : List Text)

def indented (depth : Nat) (t : Text) : Text := List.replicate (2 * depth) ' ' ++ t

mutual

def Stmt.lines (depth : Nat) : Stmt → List Text
  | .line t => [indented depth t]
  | .blank => [[]]
  | .block head body => indented depth head :: (stmtsLines (depth + 1) body ++ [indented depth "end"])
  | .branches head body =>
    indented depth head :: (body.map (indented depth) ++ [indented depth "end"])

def stmtsLines (depth : Nat) : List Stmt → List Text
  | [] => []
  | s :: r => s.lines depth ++ stmtsLines depth r

end

def fileText (stmts : List Stmt) : Text := unlines (stmtsLines 0 stmts) ++ "\n"

def inModules : List Text → List Stmt → List Stmt
  | [], body => body
  | m :: rest, body => [.block ("module " ++ m) (inModules rest body)]

def separated : List (List Stmt) → List Stmt
  | [] => []
  | [g] => g
  | g :: r => g ++ .blank :: separated r

def frozenComment : Stmt := .line "# frozen_string_literal: true"

def method (signature : Text) (body : List Text) : Stmt :=
  .block ("def " ++ signature) (body.map fun l ↦ if l.isEmpty then .blank else .line l)

end ViewForge.Ruby
