import ViewForge.Text.Basic

namespace ViewForge.Project

open Text

structure Path where
  /-- Empty for a relative path, else `/`, or `//` which stays as it is written. -/
  root : Text := []
  segments : List Text := []
  deriving DecidableEq, Repr

namespace Path

def ofText (t : Text) : Path :=
  let slashes := (t.takeWhile (· == '/')).length
  { root := if slashes == 0 then [] else if slashes == 2 then "//" else "/"
    segments := (splitOn '/' t).filter fun s ↦ !s.isEmpty && s != ['.'] }

def toText (p : Path) : Text :=
  if p.root.isEmpty && p.segments.isEmpty then "." else p.root ++ join "/" p.segments

def isAbsolute (p : Path) : Bool := !p.root.isEmpty

def append (p q : Path) : Path :=
  if q.isAbsolute then q else { p with segments := p.segments ++ q.segments }

instance : Append Path := ⟨append⟩

def entry (p : Path) (name : Text) : Path := p ++ ofText name

def parent (p : Path) : Path := { p with segments := p.segments.dropLast }

def name (p : Path) : Text := p.segments.getLastD []

def parts (p : Path) : List Text := (if p.isAbsolute then [p.root] else []) ++ p.segments

def ofParts (parts : List Text) : Path := parts.foldl (fun p s ↦ p ++ ofText s) {}

/-- The last segment before its last dot and from there on. A dot at either end of a name is
part of the name. -/
def splitName (name : Text) : Text × Text :=
  let tail := (name.reverse.takeWhile (· != '.')).reverse
  let stem := name.take (name.length - tail.length - 1)
  if name.contains '.' && !tail.isEmpty && !stem.isEmpty then (stem, '.' :: tail) else (name, [])

def stem (p : Path) : Text := (splitName p.name).1

def suffix (p : Path) : Text := (splitName p.name).2

/-- The path with another last segment; a path without one has no name to change. -/
def withName? (p : Path) (name : Text) : Option Path :=
  if p.segments.isEmpty then none else some { p with segments := p.segments.dropLast ++ [name] }

def emptyNameMessage (p : Path) : Text := "PosixPath('" ++ p.toText ++ "') has an empty name"

def relativeTo? (p base : Path) : Option Path :=
  if p.root == base.root && base.segments.isPrefixOf p.segments then
    some { segments := p.segments.drop base.segments.length }
  else none

def le (p q : Path) : Bool := !decide (q.parts < p.parts)

def collapse (segments : List Text) : List Text :=
  segments.foldl (fun acc s ↦ if s == "..".toList then acc.dropLast else acc ++ [s]) []

end Path

end ViewForge.Project
