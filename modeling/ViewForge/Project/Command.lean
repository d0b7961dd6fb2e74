import ViewForge.Project.Batch

namespace ViewForge.Project

open Text

/-- What an option does with the settings: it takes a value for a key, or it switches one. -/
inductive OptionKind where
  | help
  | version
  | value (key : Text)
  | switch (key : Text) (on : Bool)
  deriving DecidableEq, Repr

def helpOptions : List (Text × OptionKind) := [("-h", .help), ("--help", .help)]

def mainOptions : List (Text × OptionKind) := helpOptions ++ [("--version".toList, .version)]

def valueOptions : List (Text × OptionKind) :=
  [("--dest", .value "dest_path"), ("--namespace", .value "namespace"),
   ("--root", .value "root_path"), ("--ir-output", .value "ir_output_path")]

def switches : List (Text × Text) :=
  [("stimulus", "generate_stimulus"), ("update", "update"), ("strict", "strict"),
   ("tests", "generate_tests"), ("previews", "generate_previews"), ("helpers", "generate_helpers"),
   ("dry-run", "dry_run"), ("verbose", "verbose"), ("maintain-hierarchy", "maintain_hierarchy"),
   ("enhanced-erb", "enhanced_erb"), ("slots", "detect_slots")]

def switchOptions (name key : Text) : List (Text × OptionKind) :=
  [("--" ++ name, .switch key true), ("--no-" ++ name, .switch key false)]

def convertOptions : List (Text × OptionKind) :=
  helpOptions ++ valueOptions ++ switches.flatMap fun (name, key) ↦ switchOptions name key

inductive WordKind where
  | plain
  | option (kind : OptionKind) (value : Option Text)
  | unknown
  | ambiguous
  deriving DecidableEq, Repr

def splitValue (w : Text) : Text × Option Text :=
  match breakOn "=" w with
  | some (name, value) => (name, some value)
  | none => (w, none)

def isNegativeNumber : Text → Bool
  | '-' :: r =>
    match r.span isDigit with
    | (whole, []) => !whole.isEmpty
    | (_, '.' :: places) => !places.isEmpty && places.all isDigit
    | _ => false
  | _ => false

/-- Reads a word. A long option may be cut short as long as only one option begins like it. -/
def wordKind (options : List (Text × OptionKind)) (w : Text) : WordKind :=
  if w.head? != some '-' || w.length == 1 then .plain
  else
    let (name, value) := splitValue w
    match Assoc.get? w options, Assoc.get? name options with
    | some kind, _ => .option kind none
    | none, some kind => .option kind value
    | none, none =>
      let found := if startsWith w "--" then options.filter fun (o, _) ↦ startsWith o name else []
      match found with
      | [(_, kind)] => .option kind value
      | _ :: _ :: _ => .ambiguous
      | [] => if isNegativeNumber w || w.contains ' ' then .plain else .unknown

inductive Command where
  | help
  | version
  | usage
  | convert (pattern : Text) (given : List (Text × Data))

def isUnclear (options : List (Text × OptionKind)) (words : List Text) : Bool :=
  (words.takeWhile (· != "--".toList)).any fun w ↦ wordKind options w == .ambiguous

/-- What has been read of a conversion: its pattern, the values given, and whether a word was
left over. -/
structure Request where
  pattern : Option Text := none
  given : List (Text × Data) := []
  excess : Bool := false

def Request.command (r : Request) : Command :=
  match r.pattern, r.excess with
  | some pattern, false => .convert pattern r.given
  | _, _ => .usage

/-- The words behind the end of the options; `adjacent` says that the pattern stands right
before it. -/
def Request.rest (r : Request) (adjacent : Bool) (words : List Text) : Command :=
  match r.pattern, words with
  | none, [w] => ({ r with pattern := some w } : Request).command
  | some _, [] => if adjacent then r.command else .usage
  | _, _ => .usage

def readWords (r : Request) (adjacent : Bool) : List Text → Command
  | [] => r.command
  | w :: words =>
    if w == "--".toList then r.rest adjacent words
    else
      match wordKind convertOptions w with
      | .plain =>
        if r.pattern.isNone then readWords { r with pattern := some w } true words
        else readWords { r with excess := true } false words
      | .unknown => readWords { r with excess := true } false words
      | .ambiguous => .usage
      | .option .help none => .help
      | .option (.switch key on) none =>
        readWords { r with given := Assoc.set key (.bool on) r.given } false words
      | .option (.value key) (some value) =>
        readWords { r with given := Assoc.set key (.text value) r.given } false words
      | .option (.value key) none =>
        match words with
        | v :: words =>
          if v != "--".toList && wordKind convertOptions v == .plain then
            readWords { r with given := Assoc.set key (.text v) r.given } false words
          else .usage
        | [] => .usage
      | .option _ _ => .usage

def convertName : Text := "convert"

def readMain (excess : Bool) : List Text → Command
  | [] => .usage
  | w :: words =>
    if w == "--".toList then .usage
    else
      match wordKind mainOptions w with
      | .plain =>
        if w == convertName then
          if isUnclear convertOptions words then .usage else readWords { excess } false words
        else .usage
      | .unknown => readMain true words
      | .option .help none => .help
      | .option .version none => .version
      | _ => .usage

def Command.ofWords (words : List Text) : Command :=
  if isUnclear mainOptions words then .usage else readMain false words

def versionLine : Text := "v0-rails 0.1.0\n"

inductive ExitCode where
  | done
  | failed
  | misused
  | someFailed
  deriving DecidableEq, Repr

def ExitCode.number : ExitCode → Nat
  | .done => 0
  | .failed => 1
  | .misused => 2
  | .someFailed => 10

def print (p : Printed) : Run Unit :=
  modify fun s ↦ { s with printed := s.printed ++ [p] }

def reportRows (b : BatchResult) : List (List Text) :=
  (b.errors.map fun (p, e) ↦ [plainText p, "[error]Failed[/error]", plainText e]) ++
    b.warnings.map fun (p, ws) ↦
      [plainText p, "[warning]Warnings[/warning]", plainText (join "; " ws)]

def closingLine? (b : BatchResult) : Option (Level × Text) :=
  if b.errorCount == 0 && b.warningCount == 0 then
    some (.success, "Batch Complete: " ++ ofNat b.successCount ++ "/" ++
      ofNat (b.successCount + b.errorCount) ++ " components converted.")
  else if b.errorCount != 0 then
    some (.warning, ofNat b.errorCount ++ " file(s) could not be converted.")
  else none

def printReport (b : BatchResult) : Run Unit := do
  print (.table "Conversion Report" ["File", "Status", "Issues"] (reportRows b))
  print (.line ("\n[bold]Summary:[/bold] " ++ ofNat b.successCount ++ " converted, " ++
    ofNat b.warningCount ++ " warnings, " ++ ofNat b.errorCount ++ " errors."))

def printSummary (b : BatchResult) : Run Unit := do
  if b.errorCount != 0 || b.warningCount != 0 then printReport b
  match closingLine? b with
  | some (level, message) => log level message
  | none => return

def abortLine : Failure → Text
  | .noFiles pattern => plainText (Failure.noFiles pattern).message
  | failure => "Conversion aborted: " ++ plainText failure.message

def Session.setVerbose (session : Session) (verbose : Bool) : Session :=
  { session with console := { session.console with verbose } }

def convertAll (s : Settings) (pattern : Text) : Run ExitCode := do
  modify (·.setVerbose s.verbose)
  match ← ExceptT.lift (runBatch s pattern).run with
  | .error failure => do
    log .error (abortLine failure)
    return .failed
  | .ok result => do
    if !s.dryRun then printSummary result
    return if result.hasErrors then .someFailed else .done

def convertWith (pattern : Text) (given : List (Text × Data)) : Run ExitCode := do
  match loadSettings (← getThe Session).store (patternBase pattern) given with
  | .ok settings => convertAll settings pattern
  | .error failure =>
    if failure.isInvalid then
      log .error ("Invalid configuration: " ++ plainText failure.message)
      return .failed
    else throw (.notLoaded failure)

def Command.run : Command → Run ExitCode
  | .help => return .done
  | .usage => return .misused
  | .version => do
    modifyThe Session fun s ↦ { s with stdout := s.stdout ++ versionLine }
    return .done
  | .convert pattern given => convertWith pattern given

end ViewForge.Project
