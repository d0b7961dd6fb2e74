import ViewForge.Component.Record
import ViewForge.Project.Conversion
import ViewForge.Project.Report
import ViewForge.Project.Search
import ViewForge.Project.Writer

namespace ViewForge.Project

open Text

def discover (pattern : Text) : Run (List Path) := do
  match matching (← get).store pattern with
  | [] => throw (.noFiles pattern)
  | files => return files

def readSource (p : Path) : Run Text := do
  match decode (← onDisk .notRead (Disk.read p)) with
  | .ok t => return plainLineBreaks t
  | .error e => throw (.undecodable e)

/-- The namespace of a file; directories below the base add to it if the settings say so. -/
def namespaceFor (s : Settings) (base p : Path) : Text :=
  if !s.maintainHierarchy then s.namespaceName
  else
    match p.parent.relativeTo? base with
    | some dir => nestedNamespace s.namespaceName dir
    | none => s.namespaceName

def dumpComponent (c : Component) (p : Path) : Run Unit := do
  onDisk (.notWritten p) do
    Disk.makeDirectories p.parent
    Disk.write p (encode c.toJson)
  log .debug ("IR written to " ++ marked p.toText)

def dumpTarget (s : Settings) (c : Component) (multiple : Bool) : Run (Option Path) :=
  match s.irOutput with
  | none => pure none
  | some base =>
    match dumpPath? base c.snakeName multiple with
    | some p => pure (some p)
    | none => throw (.emptyName base)

abbrev FileRun := ExceptT Failure (StateT FileReport (StateM Session))

def FileRun.ofRun {α : Type} (action : Run α) : FileRun α :=
  ExceptT.mk fun report ↦ do return (← action.run, report)

def FileRun.log (level : Level) (message : Text) : FileRun Unit :=
  FileRun.ofRun (Project.log level message)

def writeArtifacts (s : Settings) (c : Component) (namespaceName : Text) :
    List (ArtifactKind × Text) → FileRun Unit
  | [] => pure ()
  | (kind, text) :: rest => do
    let target := artifactPath c.snakeName namespaceName s.dest s.root kind
    let written ← FileRun.ofRun (writeFile s.update target text)
    modifyThe FileReport fun r ↦ { r with written := r.written ++ [written.path.toText] }
    if written.action == .sideBySide then
      FileRun.log .warning
        (marked written.requested.toText ++ " exists; wrote " ++ marked written.path.toText)
    writeArtifacts s c namespaceName rest

def logWarnings (c : Component) : List Text → FileRun Unit
  | [] => pure ()
  | w :: rest => do
    FileRun.log .warning ("[component]" ++ c.name ++ "[/component]: " ++ plainText w)
    logWarnings c rest

def writeComponent (s : Settings) (c : Component) (namespaceName : Text) (multiple : Bool)
    (files : List (ArtifactKind × Text)) : FileRun Unit := do
  if let some target ← FileRun.ofRun (dumpTarget s c multiple) then
    FileRun.ofRun (dumpComponent c target)
  writeArtifacts s c namespaceName files
  if s.verbose then logWarnings c c.warnings

/-- Converts a file and writes its files; in a dry run it only prints the component. -/
def convertFile (s : Settings) (base : Path) (multiple : Bool) (p : Path) : FileRun Unit := do
  let namespaceName := namespaceFor s base p
  let source ← FileRun.ofRun (readSource p)
  match Definition.ofSource? p.toText source with
  | none => throw (.noComponent p.toText)
  | some d =>
    let c ← FileRun.ofRun (generate s.detectSlots d)
    let files := artifacts s c namespaceName
    modifyThe FileReport fun r ↦ { r with component := some c.name, warnings := c.warnings }
    if s.dryRun then
      modifyThe Session fun session ↦
        { session with stdout := session.stdout ++ c.toJson ++ ['\n'] }
    else writeComponent s c namespaceName multiple files

def detailLine (path : Text) : Text := "Converting " ++ marked path

/-- The path stands in the message as it is, even where it reads as a style tag. -/
def failureLine (path : Text) (failure : Failure) : Text :=
  "Failed to convert " ++ path ++ ": " ++ plainText failure.message

/-- Processes a file. A failure is part of its report, unless the settings are strict. -/
def processFile (s : Settings) (base : Path) (multiple : Bool) (p : Path) : Run FileReport := do
  log .debug (detailLine p.toText)
  let (result, report) ← (convertFile s base multiple p).run.run { path := p.toText }
  match result with
  | .ok _ => return report
  | .error failure =>
    if s.strict then throw failure
    log .error (failureLine p.toText failure)
    return { report with error := some failure.message }

def processFiles (s : Settings) (base : Path) (multiple : Bool) :
    BatchResult → List Path → Run BatchResult
  | result, [] => return result
  | result, p :: rest => do
    let report ← processFile s base multiple p
    processFiles s base multiple (result.record report) rest

def announcement (pattern : Text) (files : List Path) : Text :=
  "Processing " ++ ofNat files.length ++ " file(s) matching " ++ marked pattern

def runBatch (s : Settings) (pattern : Text) : Run BatchResult := do
  let files ← discover pattern
  log .info (announcement pattern files)
  processFiles s (patternBase pattern) (1 < files.length) {} files

end ViewForge.Project
