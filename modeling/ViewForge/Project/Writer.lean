import ViewForge.Project.Session

namespace ViewForge.Project

open Text

inductive WriteAction where
  | created
  | updated
  | sideBySide
  deriving DecidableEq, Repr

def WriteAction.label : WriteAction → Text
  | .created => "created"
  | .updated => "updated"
  | .sideBySide => "side-by-side"

structure Written where
  requested : Path
  path : Path
  action : WriteAction
  backup : Option Path := none
  deriving DecidableEq, Repr

def besides (p : Path) (ending : Text) : Run Path :=
  match p.withName? (p.name ++ ending) with
  | some q => pure q
  | none => throw (.emptyName p)

def prepare (update : Bool) (p : Path) : Run Written := do
  if !(← get).store.has p then return ⟨p, p, .created, none⟩
  else if update then
    let backup ← besides p ".bak"
    onDisk (.notWritten p) (Disk.copy p backup)
    return ⟨p, p, .updated, some backup⟩
  else return ⟨p, ← besides p ".new", .sideBySide, none⟩

def writeFile (update : Bool) (p : Path) (content : Text) : Run Written := do
  onDisk (.notWritten p) (Disk.makeDirectories p.parent)
  let written ← prepare update p
  onDisk (.notWritten p) (Disk.write written.path (encode content))
  log .debug (written.action.label ++ ": " ++ marked written.path.toText)
  return written

end ViewForge.Project
