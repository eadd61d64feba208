import UnderscoreLint.Report.Finding
import UnderscoreLint.Text.Lines

/-!
# Reports for scripts

One line for each finding, with its fields divided by colons. The message comes last, since
it may have colons in it. A line or column that is not known is empty. A report without
findings is the empty text.
-/

namespace UnderscoreLint.Report

/-- A coordinate, or nothing. -/
def porcelainCoordinate (c : Option Coordinate) : String :=
  (c.map Coordinate.shown).getD ""

/-- The line of a finding. -/
def porcelainLine (f : Finding) : Text :=
  let d := f.diagnostic
  Text.intercalate ":" [d.ruleId, d.severity, f.path, porcelainCoordinate d.location.line,
    porcelainCoordinate d.location.column, d.message]

/-- The report for scripts. -/
def porcelain (r : Report) : Text :=
  Text.joinLines (r.findings.map porcelainLine)

end UnderscoreLint.Report
