import ViewForge.Component.OfSource
import ViewForge.Project.Load

namespace ViewForge.Project

open Text

inductive Level where
  | debug
  | info
  | success
  | warning
  | error
  deriving DecidableEq, Repr

def Level.label : Level → Text
  | .debug => "DEBUG"
  | .info => "INFO"
  | .success => "SUCCESS"
  | .warning => "WARNING"
  | .error => "ERROR"

def Level.mark : Level → Text
  | .debug => []
  | .info => "ℹ️  "
  | .success => "✅ "
  | .warning => "⚠️  "
  | .error => "❌ "

/-- What is printed for the reader: a line, or a table. -/
inductive Printed where
  | line (text : Text)
  | table (title : Text) (columns : List Text) (rows : List (List Text))
  deriving DecidableEq, Repr

/-- Where messages are shown. A message that cannot be shown is refused for a reason. -/
structure Console where
  verbose : Bool := false
  refusal : Text → Option Text := fun _ ↦ none

structure Session where
  store : Store
  console : Console := {}
  logs : List (Level × Text) := []
  stdout : Text := []
  printed : List Printed := []

inductive Failure where
  | noFiles (pattern : Text)
  | noComponent (path : Text)
  | notWritten (path : Path) (cause : FileError)
  | notRead (cause : FileError)
  | undecodable (error : DecodeError)
  | emptyName (path : Path)
  | notLoaded (cause : LoadFailure)
  | unprintable (reason : Text)

def Failure.message : Failure → Text
  | .noFiles pattern => "No files matching pattern: " ++ pattern
  | .noComponent path => noComponentMessage path
  | .notWritten path cause => "Failed to write file " ++ path.toText ++ ": " ++ cause.message
  | .notRead cause => cause.message
  | .undecodable error => error.message
  | .emptyName path => path.emptyNameMessage
  | .notLoaded cause => cause.message
  | .unprintable reason => reason

abbrev Run := ExceptT Failure (StateM Session)

/-- Whether a console is given a message: details are for verbose ones only. -/
def Console.hears (console : Console) (level : Level) : Bool := level != .debug || console.verbose

def Console.refusal? (console : Console) (level : Level) (message : Text) : Option Text :=
  if console.hears level then console.refusal (level.mark ++ message) else none

def log (level : Level) (message : Text) : Run Unit := do
  let console := (← get).console
  match console.refusal? level message with
  | some reason => throw (.unprintable reason)
  | none =>
    if console.hears level then
      modify fun s ↦ { s with logs := s.logs ++ [(level, level.mark ++ message)] }

/-- Runs an action on the file system; its failure becomes one of the run. -/
def onDisk {α : Type} (failure : FileError → Failure) (action : Disk α) : Run α := do
  let s ← get
  let (result, store) := action.run s.store
  set { s with store }
  match result with
  | .ok a => return a
  | .error e => throw (failure e)

def marked (p : Text) : Text := "[path]" ++ p ++ "[/path]"

def isTagStart (c : Char) : Bool := isAsciiLower c || c == '#' || c == '/' || c == '@'

/-- What begins like a style tag, behind backslashes: how many there are, and the tag. -/
def styleTag? (t : Text) : Option (Nat × Text) :=
  let slashes := (t.takeWhile (· == '\\')).length
  match t.drop slashes with
  | '[' :: c :: r =>
    let body := r.takeWhile fun d ↦ d != '[' && d != ']'
    if isTagStart c && (r.drop body.length).head? == some ']' then
      some (slashes, '[' :: c :: body ++ [']'])
    else none
  | _ => none

/-- A text in which nothing reads as a style tag: such tags get a backslash, and backslashes
before them are doubled. A single backslash at the end is doubled too. -/
def plainText (t : Text) : Text :=
  let escaped := replaceBy (fun u ↦ (styleTag? u).map fun (n, tag) ↦
    (List.replicate (2 * n + 1) '\\' ++ tag, n + tag.length)) t
  if endsWith escaped "\\" && !endsWith escaped "\\\\" then escaped ++ "\\" else escaped

/-- A text without its style tags; a tag behind an odd number of backslashes is text. -/
def unstyled (t : Text) : Text :=
  replaceBy (fun u ↦ (styleTag? u).map fun (n, tag) ↦
    (List.replicate (n / 2) '\\' ++ (if n % 2 == 1 then tag else []), n + tag.length)) t

end ViewForge.Project
