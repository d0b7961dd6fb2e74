import ViewForge.Data.Checked

namespace ViewForge.Project

open Text Checked

structure FileReport where
  path : Text
  component : Option Text := none
  written : List Text := []
  warnings : List Text := []
  error : Option Text := none
  deriving DecidableEq, Repr

def FileReport.success (r : FileReport) : Bool := r.error.isNone

structure BatchResult where
  successCount : Nat := 0
  warningCount : Nat := 0
  errorCount : Nat := 0
  /-- The files with warnings, of those that succeeded. -/
  warnings : List (Text × List Text) := []
  errors : List (Text × Text) := []
  reports : List FileReport := []
  deriving DecidableEq, Repr

namespace BatchResult

/-- Adds the outcome of a file. The warnings of a file that failed do not count. -/
def record (b : BatchResult) (r : FileReport) : BatchResult :=
  let b := { b with reports := b.reports ++ [r] }
  match r.error with
  | some e => { b with errorCount := b.errorCount + 1, errors := b.errors ++ [(r.path, e)] }
  | none =>
    let b := { b with successCount := b.successCount + 1 }
    if r.warnings.isEmpty then b
    else
      { b with
        warningCount := b.warningCount + r.warnings.length
        warnings := b.warnings ++ [(r.path, r.warnings)] }

def hasErrors (b : BatchResult) : Bool := 0 < b.errorCount

end BatchResult

def asTextList : Data → Checked (List Text) := Data.asList Data.asText

def FileReport.ofEntries (entries : List (Text × Data)) : Checked FileReport :=
  ap (ap (ap (ap (ap (.ok FileReport.mk)
    (required entries "file_path" Data.asText))
    (field entries "component" (Data.asOptional Data.asText) none))
    (field entries "written" asTextList []))
    (field entries "warnings" asTextList []))
    (field entries "error" (Data.asOptional Data.asText) none)

def FileReport.toData (r : FileReport) : Data :=
  .table
    [("file_path", .text r.path), ("component", .ofText? r.component),
     ("written", .ofTexts r.written), ("warnings", .ofTexts r.warnings), ("error", .ofText? r.error)]

namespace BatchResult

def warningsData (b : BatchResult) : Data :=
  .list (b.warnings.map fun (p, ws) ↦ .table [("file_path", .text p), ("warnings", .ofTexts ws)])

def errorsData (b : BatchResult) : Data :=
  .list (b.errors.map fun (p, e) ↦ .table [("file_path", .text p), ("error", .text e)])

def toData (b : BatchResult) : Data :=
  .table
    [("success_count", .integer b.successCount), ("warning_count", .integer b.warningCount),
     ("error_count", .integer b.errorCount), ("warnings", b.warningsData), ("errors", b.errorsData),
     ("reports", .list (b.reports.map FileReport.toData))]

end BatchResult

end ViewForge.Project
