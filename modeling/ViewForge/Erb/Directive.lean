import ViewForge.Erb.Token

namespace ViewForge.Erb

open Text

inductive Chunk where
  | plain (t : Text)
  | directive (body : Text)
  deriving DecidableEq, Repr

def consPlain (c : Char) : List Chunk → List Chunk
  | .plain t :: r => .plain (c :: t) :: r
  | r => .plain [c] :: r

/-- The chunks of a text from which `skip` characters of a directive already cut are left. -/
def chunksFrom : Nat → Text → List Chunk
  | _, [] => []
  | k + 1, _ :: r => chunksFrom k r
  | 0, c :: r =>
    if startsDirective (c :: r) then
      match breakOn "%>" (r.drop 1) with
      | some (body, _) => .directive body :: chunksFrom (body.length + 3) r
      | none => consPlain c (chunksFrom 0 r)
    else consPlain c (chunksFrom 0 r)

/-- Cuts a text at its directives, each ending at the first `%>` after its start. -/
def chunks (t : Text) : List Chunk := chunksFrom 0 t

/-- Code without the white space around it and without the trim mark before the closing
delimiter. -/
def bareCode (t : Text) : Text :=
  let t := t.dropWhile isBlank
  trimRight isBlank (if endsWith t "-" then t.dropLast else t)

/-- The marker of a body, if it is one of `markers`, and the code after it. -/
def marked (markers : Text) (body : Text) : Text × Text :=
  match body with
  | c :: r => if markers.contains c then ([c], bareCode r) else ([], bareCode body)
  | [] => ([], [])

def mapDirectives (markers : Text) (f : Text → Text → Text) (t : Text) : Text :=
  (chunks t).flatMap fun
    | .plain u => u
    | .directive body => let (marker, code) := marked markers body
      f marker code

def wholeBody? (t : Text) : Option Text :=
  if startsDirective t && endsWith t "%>" && 4 ≤ t.length then
    some ((t.drop 2).take (t.length - 4))
  else none

end ViewForge.Erb
