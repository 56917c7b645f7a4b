import AnchorScan.Json.Fields
import AnchorScan.Json.Writer
import AnchorScan.Scanner

/-!
# AnchorScan.Report

The outcome of one scan as it is handed on: what was scanned, its size where
known, how much of it was read, what was found, and the error of a scan that
failed.  Findings and reports have a JSON form, whose members stand in the
order of the fields.
-/

namespace AnchorScan

open Json

/-! ## reports -/

/-- The outcome of one scan. -/
structure Report where
  source : String
  size : Option Nat := none
  bytesScanned : Nat := 0
  findings : List Finding := []
  error : Option String := none
  deriving DecidableEq, Repr

namespace Report

/-- The report of a scan that came to its end. -/
def ofSession (source : String) (session : Session) : Report :=
  { source
    size := session.total
    bytesScanned := session.cursor
    findings := session.findings }

/-- The report of a scan that failed. -/
def ofFailure (source : String) (failure : Failure) : Report :=
  { source, error := some failure.message }

/-- The report of a scan, however it ended. -/
def ofReply (source : String) : Except Failure Session → Report
  | .ok session => ofSession source session
  | .error failure => ofFailure source failure

/-- Whether the scan came to its end. -/
def succeeded (report : Report) : Bool := report.error.isNone

/-- Whether anything was found. -/
def foundAny (report : Report) : Bool := !report.findings.isEmpty

end Report

/-! ## JSON -/

/-- A finding in JSON. -/
def Finding.toJson (finding : Finding) : Value :=
  .record [("identifier", .text finding.identifier), ("offset", .natural finding.offset)]

/-- Reads a finding. -/
def Finding.ofJson? (value : Value) : Option Finding := do
  let fields ← value.fields? ["identifier", "offset"] .whole
  let identifier ← fields.field? "identifier" Value.text?
  let offset ← fields.field? "offset" Value.natural?
  some { identifier, offset }

namespace Report

/-- The names of the fields in JSON, in their order. -/
def fieldNames : List String := ["source", "size", "bytes_scanned", "results", "error"]

/-- A report in JSON. -/
def toJson (report : Report) : Value :=
  .record [
    ("source", .text report.source),
    ("size", .orNull .natural report.size),
    ("bytes_scanned", .natural report.bytesScanned),
    ("results", .array (report.findings.map Finding.toJson)),
    ("error", .orNull .text report.error)]

/-- Reads a report.  An object may leave out the size and the error. -/
def ofJson? (value : Value) : Option Report := do
  let fields ← value.fields? fieldNames .whole
  let source ← fields.field? "source" Value.text?
  let size ← fields.fieldOr "size" (Value.nullable? Value.natural?) none
  let bytesScanned ← fields.field? "bytes_scanned" Value.natural?
  let findings ← fields.field? "results" (Value.list? Finding.ofJson?)
  let error ← fields.fieldOr "error" (Value.nullable? Value.text?) none
  some { source, size, bytesScanned, findings, error }

/-- Reports as a JSON text over lines. -/
def jsonText (reports : List Report) : String := (Value.array (reports.map toJson)).pretty

end Report

end AnchorScan
