import ViewForge.Data.Assoc
import ViewForge.Project.Path
import ViewForge.Text.Utf8

namespace ViewForge.Project

open Text

abbrev Place := List Text

inductive Entry where
  | directory
  | file (bytes : Bytes)
  deriving DecidableEq, Repr

inductive FileCause where
  | missing
  | exists
  | notDirectory
  | isDirectory
  deriving DecidableEq, Repr

def FileCause.number : FileCause → Nat
  | .missing => 2
  | .exists => 17
  | .notDirectory => 20
  | .isDirectory => 21

def FileCause.message : FileCause → Text
  | .missing => "No such file or directory"
  | .exists => "File exists"
  | .notDirectory => "Not a directory"
  | .isDirectory => "Is a directory"

/-- What was in the way, and the path that was asked for. -/
structure FileError where
  cause : FileCause
  path : Path
  deriving DecidableEq, Repr

def FileError.message (e : FileError) : Text :=
  "[Errno " ++ ofNat e.cause.number ++ "] " ++ e.cause.message ++ ": " ++ shown e.path.toText

/-- A file system with a current directory, from which relative paths are taken. -/
structure Store where
  current : Place := []
  entries : List (Place × Entry) := []
  deriving DecidableEq, Repr

namespace Store

def get? (s : Store) (p : Place) : Option Entry :=
  if p = [] then some .directory else Assoc.get? p s.entries

def set (s : Store) (p : Place) (e : Entry) : Store :=
  { s with entries := Assoc.set p e s.entries }

def erase (s : Store) (p : Place) : Store :=
  { s with entries := s.entries.filter fun e ↦ !p.isPrefixOf e.1 }

theorem get?_set_self (s : Store) {p : Place} (hp : p ≠ []) (e : Entry) :
    (s.set p e).get? p = some e := by
  simp [get?, set, hp]

theorem get?_set_of_ne (s : Store) {p q : Place} (h : q ≠ p) (e : Entry) :
    (s.set p e).get? q = s.get? q := by
  simp [get?, set, h]

/-- Walks from a place along segments. Every place walked through has to be a directory. -/
def walk (s : Store) (start : Place) : List Text → Except FileCause Place
  | [] => .ok start
  | segment :: rest =>
    match s.get? start with
    | some .directory =>
      walk s (if segment == "..".toList then start.dropLast else start ++ [segment]) rest
    | some (.file _) => .error .notDirectory
    | none => .error .missing

/-- The place that a path leads to, whether or not something is there. -/
def locate (s : Store) (p : Path) : Except FileCause Place :=
  s.walk (if p.isAbsolute then [] else s.current) p.segments

def entryAt? (s : Store) (p : Path) : Option Entry :=
  match s.locate p with
  | .ok place => s.get? place
  | .error _ => none

def has (s : Store) (p : Path) : Bool := (s.entryAt? p).isSome

def isFile (s : Store) (p : Path) : Bool :=
  match s.entryAt? p with
  | some (.file _) => true
  | _ => false

def isDirectory (s : Store) (p : Path) : Bool :=
  match s.entryAt? p with
  | some .directory => true
  | _ => false

def children (s : Store) (p : Path) : List Text :=
  match s.locate p with
  | .error _ => []
  | .ok place =>
    s.entries.filterMap fun (q, _) ↦
      match q.getLast? with
      | some name => if q.dropLast = place then some name else none
      | none => none

def readAt (s : Store) (p : Path) : Except FileCause Bytes := do
  match s.get? (← s.locate p) with
  | some (.file bytes) => .ok bytes
  | some .directory => .error .isDirectory
  | none => .error .missing

def writeAt (s : Store) (p : Path) (bytes : Bytes) : Except FileCause Store := do
  let place ← s.locate p
  match s.get? place with
  | some .directory => .error .isDirectory
  | _ => .ok (s.set place (.file bytes))

def makeAt (s : Store) (p : Path) : Except FileCause Store := do
  let place ← s.locate p
  match s.get? place with
  | some _ => .error .exists
  | none => .ok (s.set place .directory)

end Store

abbrev Disk := ExceptT FileError (StateM Store)

namespace Disk

def change (p : Path) (f : Store → Except FileCause Store) : Disk Unit := do
  match f (← get) with
  | .ok s => set s
  | .error cause => throw ⟨cause, p⟩

def read (p : Path) : Disk Bytes := do
  match (← get).readAt p with
  | .ok bytes => return bytes
  | .error cause => throw ⟨cause, p⟩

def write (p : Path) (bytes : Bytes) : Disk Unit := change p fun s ↦ s.writeAt p bytes

/-- Makes a directory, unless there is one already. -/
def makeLast (p : Path) : Disk Unit := do
  if (← get).isDirectory p then return () else change p fun s ↦ s.makeAt p

def makeUpTo (p : Path) : Nat → Disk Unit
  | 0 => makeLast p
  | n + 1 => do
    match (← get).makeAt p with
    | .ok s => set s
    | .error .missing => do
      makeUpTo p.parent n
      makeLast p
    | .error _ => makeLast p

def makeDirectories (p : Path) : Disk Unit := makeUpTo p p.segments.length

def copy (source target : Path) : Disk Unit := do
  let target := if (← get).isDirectory target then target.entry source.name else target
  let bytes ← read source
  write target bytes

end Disk

end ViewForge.Project
