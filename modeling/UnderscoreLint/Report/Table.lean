import UnderscoreLint.Report.Console
import UnderscoreLint.Report.Finding

/-!
# Reports as a table

The report for a terminal: what took part, a table of the findings under a header, and a
line that counts them. `Report.panels` is what a console is given, and `Report.table` is how it
looks where everything is shown as it is.
-/

namespace UnderscoreLint.Report

/-- The header of the table. -/
def header : List Text := ["location", "severity", "message", "rule"]

/-- The cells of a finding. Whatever is no error is shown as a warning. -/
def cells (f : Finding) : List Text :=
  [f.place, if f.isError then Severity.error else Severity.warn, f.diagnostic.message,
    f.diagnostic.ruleId]

/-- The rows of the table. -/
def rows (r : Report) : List (List Text) :=
  header :: r.findings.map cells

/-- The panels of the report. -/
def panels (r : Report) : List Panel :=
  let rules := Decimal.intText r.rulesEvaluated
  let files := Decimal.intText r.filesScanned
  let head := [.line s!"Rules: {rules} enabled   Files: {files} scanned", .line ""]
  if r.findings.isEmpty then head ++ [.line "✓ No problems found"]
  else head ++ [.grid r.rows, .line "", .line r.tally]

/-- The report as a table. -/
def table (r : Report) : Text :=
  Text.join (r.panels.map Panel.written)

end UnderscoreLint.Report
