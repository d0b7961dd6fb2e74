import ViewForge.Project.Pattern
import ViewForge.Project.Store

namespace ViewForge.Project

open Text

def anyDepth : Text := "**"

def Store.depth (s : Store) : Nat := s.entries.length

/-- Everything below a directory that is not hidden; only directories if `only`. -/
def descendants (s : Store) (only : Bool) : Nat → Path → List Path
  | 0, _ => []
  | n + 1, p =>
    let inner := (s.children p).filter fun name ↦
      !isHidden name && (!only || s.isDirectory (p.entry name))
    inner.flatMap fun name ↦ p.entry name :: descendants s only n (p.entry name)

/-- The paths that a segment leads to from a path. Wildcards before the last segment lead to
directories only; a plain segment is not looked up. -/
def step (s : Store) (last : Bool) (segment : Text) (p : Path) : List Path :=
  if segment == anyDepth then
    -- Nothing is below a file, not even the file itself.
    if p.segments.isEmpty || s.isDirectory p then p :: descendants s (!last) (s.depth + 1) p else []
  else if hasWildcard segment then
    ((s.children p).filter fun name ↦
      matchesName segment name && (last || s.isDirectory (p.entry name))).map p.entry
  else [p.entry segment]

def expand (s : Store) : List Text → List Path → List Path
  | [], ps => ps
  | segment :: rest, ps => expand s rest (ps.flatMap (step s rest.isEmpty segment))

/-- Whether a pattern can only select directories: it ends in a slash, or in the name that a
directory has for itself. -/
def selectsDirectories (pattern : Text) : Bool :=
  let last := (splitOn '/' pattern).getLastD []
  last.isEmpty || last == ['.']

def matching (s : Store) (pattern : Text) : List Path :=
  if selectsDirectories pattern then []
  else
    let start := Path.ofText pattern
    let found := expand s start.segments [{ start with segments := [] }]
    (found.filter s.isFile).mergeSort Path.le

end ViewForge.Project
