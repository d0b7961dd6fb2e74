import ViewForge.Data.Checked
import ViewForge.Naming
import ViewForge.Project.Path

namespace ViewForge.Project

open Text Checked

structure Settings where
  dest : Path := Path.ofText "app/components"
  namespaceName : Text := "Ui"
  root : Path
  irOutput : Option Path := none
  stimulus : Bool := false
  update : Bool := false
  strict : Bool := false
  tests : Bool := true
  previews : Bool := false
  helpers : Bool := false
  dryRun : Bool := false
  verbose : Bool := false
  maintainHierarchy : Bool := false
  enhanced : Bool := false
  detectSlots : Bool := false
  deriving DecidableEq, Repr

namespace Settings

def isConstantSegment : Text → Bool
  | [] => false
  | c :: r => isAsciiLetter c && r.all fun d ↦ isAsciiLetter d || isAsciiDigit d || d == '_'

/-- The constant path that a namespace is written for, if its segments are names. -/
def namespaceOf? (raw : Text) : Option Text :=
  let segments := Naming.segments (strip raw)
  if !segments.isEmpty && segments.all isConstantSegment then some (Naming.constantPath raw)
  else none

def asNamespace (d : Data) : Checked Text :=
  match d.asText with
  | .error e => .error e
  | .ok raw =>
    match namespaceOf? raw with
    | some path => .ok path
    | none => fault (.badNamespace raw)

def asPath : Data → Checked Path
  | .text t => .ok (Path.ofText t)
  | _ => fault .notPath

def keys : List Text :=
  ["dest_path", "namespace", "root_path", "generate_stimulus", "update", "ir_output_path", "strict",
   "generate_tests", "generate_previews", "generate_helpers", "dry_run", "verbose",
   "maintain_hierarchy", "enhanced_erb", "detect_slots"]

/-- Reads settings; `root` is the project root unless one is given. -/
def ofEntries (root : Path) (entries : List (Text × Data)) : Checked Settings :=
  let base : Settings := { root }
  let flag (key : Text) (default : Bool) := field entries key Data.asBool default
  ap (ap (ap (ap (ap (ap (ap (ap (ap (ap (ap (ap (ap (ap (ap (.ok Settings.mk)
    (field entries "dest_path" asPath base.dest))
    (field entries "namespace" asNamespace base.namespaceName))
    (field entries "root_path" asPath base.root))
    (field entries "ir_output_path" (Data.asOptional asPath) none))
    (flag "generate_stimulus" base.stimulus))
    (flag "update" base.update))
    (flag "strict" base.strict))
    (flag "generate_tests" base.tests))
    (flag "generate_previews" base.previews))
    (flag "generate_helpers" base.helpers))
    (flag "dry_run" base.dryRun))
    (flag "verbose" base.verbose))
    (flag "maintain_hierarchy" base.maintainHierarchy))
    (flag "enhanced_erb" base.enhanced))
    (flag "detect_slots" base.detectSlots)

def namespaceDir (s : Settings) : Text := Naming.directory s.namespaceName

def toEntries (s : Settings) : List (Text × Data) :=
  [("dest_path", .text s.dest.toText), ("namespace", .text s.namespaceName),
   ("root_path", .text s.root.toText), ("generate_stimulus", .bool s.stimulus),
   ("update", .bool s.update), ("ir_output_path", .ofText? (s.irOutput.map Path.toText)),
   ("strict", .bool s.strict), ("generate_tests", .bool s.tests),
   ("generate_previews", .bool s.previews), ("generate_helpers", .bool s.helpers),
   ("dry_run", .bool s.dryRun), ("verbose", .bool s.verbose),
   ("maintain_hierarchy", .bool s.maintainHierarchy), ("enhanced_erb", .bool s.enhanced),
   ("detect_slots", .bool s.detectSlots), ("namespace_dir", .text s.namespaceDir)]

end Settings

end ViewForge.Project
