import UnderscoreLint.Json.Printer
import UnderscoreLint.Report.Finding

/-!
# Reports as JSON

The report as a JSON document with the list of findings and a summary.
-/

namespace UnderscoreLint.Report

/-- A number as a value. -/
def count (n : Int) : Value :=
  .scalar (.int n)

/-- A coordinate as a value. -/
def coordinateValue (c : Option Coordinate) : Value :=
  .scalar ((c.map Coordinate.toScalar).getD .null)

/-- A finding as a value. -/
def findingValue (f : Finding) : Value :=
  let d := f.diagnostic
  .map [
    ("file_path", .text f.path),
    ("line", coordinateValue d.location.line),
    ("column", coordinateValue d.location.column),
    ("severity", .text d.severity),
    ("rule_id", .text d.ruleId),
    ("message", .text d.message)]

/-- The summary as a value. -/
def summaryValue (r : Report) : Value :=
  .map [
    ("rules_evaluated", count r.rulesEvaluated),
    ("files_scanned", count r.filesScanned),
    ("errors_count", count r.errors.length),
    ("warnings_count", count r.warnings.length),
    ("elapsed_ms", .scalar (.float r.elapsed))]

/-- The report as a value. -/
def value (r : Report) : Value :=
  .map [("findings", .list (r.findings.map findingValue)), ("summary", r.summaryValue)]

/-- The report as a JSON text. -/
def json (r : Report) : String :=
  Json.write r.value

end UnderscoreLint.Report
