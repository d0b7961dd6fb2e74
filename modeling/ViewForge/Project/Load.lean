import ViewForge.Data.Toml
import ViewForge.Project.Pattern
import ViewForge.Project.Settings
import ViewForge.Project.Store

namespace ViewForge.Project

open Text

inductive LoadFailure where
  | invalid (faults : List Fault)
  | unreadable
  | undecodable (error : DecodeError)
  | notTable (kind needed : Text)
  | notPathValue (kind : Text)

def kindName : Data → Text
  | .null => "NoneType"
  | .bool _ => "bool"
  | .integer _ => "int"
  | .fraction => "float"
  | .text _ => "str"
  | .list _ => "list"
  | .table _ => "dict"

namespace LoadFailure

def message : LoadFailure → Text
  | .invalid faults => faultsMessage faults
  | .unreadable => "Invalid TOML"
  | .undecodable e => e.message
  | .notTable kind needed => "'" ++ kind ++ "' object has no attribute '" ++ needed ++ "'"
  | .notPathValue kind => "expected str, bytes or os.PathLike object, not " ++ kind

def isInvalid : LoadFailure → Bool
  | .invalid _ | .unreadable | .undecodable _ => true
  | .notTable .. | .notPathValue _ => false

end LoadFailure

def settingsFile : Text := "pyproject.toml"

def settingsSection : Text := "v0_rails"

def Path.ofPlace (place : Place) : Path := { root := "/", segments := place }

def Store.resolved (s : Store) (p : Path) : Place :=
  Path.collapse ((if p.isAbsolute then [] else s.current) ++ p.segments)

def ancestors (place : Place) : List Place :=
  (List.range (place.length + 1)).reverse.map place.take

def settingsDirectory? (s : Store) (place : Place) : Option Place :=
  (ancestors place).find? fun p ↦ s.isFile ((Path.ofPlace p).entry settingsFile)

def tableAt (entries : List (Text × Data)) (key needed : Text) :
    Except LoadFailure (List (Text × Data)) :=
  match Assoc.get? key entries with
  | none => .ok []
  | some (.table inner) => .ok inner
  | some d => .error (.notTable (kindName d) needed)

def sectionOf (bytes : Bytes) : Except LoadFailure (List (Text × Data)) := do
  match decode bytes with
  | .error e => .error (.undecodable e)
  | .ok t =>
    match Toml.parse? t with
    | none => .error .unreadable
    | some entries =>
      let tool ← tableAt entries "tool" "get"
      tableAt tool settingsSection "items"

def pathKeys : List Text := ["dest_path", "root_path", "ir_output_path"]

def anchored (directory : Path) (key : Text) (d : Data) : Except LoadFailure Data :=
  if pathKeys.contains key then
    match d with
    | .text t => .ok (.text (directory.entry t).toText)
    | d => .error (.notPathValue (kindName d))
  else .ok d

def storedEntries (s : Store) (place : Place) : Except LoadFailure (List (Text × Data)) :=
  match settingsDirectory? s place with
  | none => .ok []
  | some directory => do
    let base := Path.ofPlace directory
    let entries ←
      match s.readAt (base.entry settingsFile) with
      | .ok bytes => sectionOf bytes
      | .error _ => .ok []
    let known := entries.filter fun (k, _) ↦ Settings.keys.contains k
    let paths := pathKeys.filterMap fun k ↦ (Assoc.get? k known).map (k, ·)
    let paths ← paths.mapM fun (k, d) ↦ do return (k, ← anchored base k d)
    return paths.foldl (fun acc (k, d) ↦ Assoc.set k d acc) known

/-- Settings for a run that starts its search at a path; values that are given win. -/
def loadSettings (s : Store) (search : Path) (given : List (Text × Data)) :
    Except LoadFailure Settings := do
  let stored ← storedEntries s (s.resolved search)
  let present := given.filter fun (_, d) ↦
    match d with
    | .null => false
    | _ => true
  let entries := present.foldl (fun acc (k, d) ↦ Assoc.set k d acc) stored
  match Settings.ofEntries (Path.ofPlace s.current) entries with
  | .ok settings => .ok settings
  | .error faults => .error (.invalid faults)

end ViewForge.Project
