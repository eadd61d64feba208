import UnderscoreLint.Report.Finding
import UnderscoreLint.Text.Lines

/-!
# Reports for reading

The report as a few lines of text: what took part, one line for each finding with a mark for
its severity, and a line that counts them.
-/

namespace UnderscoreLint.Report

/-- The duration in seconds with one place. -/
def seconds (r : Report) : String :=
  String.ofList (Decimal.fixed 1 (r.elapsed / 1000.0)) ++ "s"

/-- The line of a finding. -/
def textLine (f : Finding) : Text :=
  let mark := if f.isError then "✗" else "⚠"
  mark ++ " " ++ f.place ++ "  " ++ f.diagnostic.message ++ "  [" ++ f.diagnostic.ruleId ++ "]"

/-- The lines that say what took part. -/
def textHead (r : Report) : List Text :=
  let rules := Decimal.intText r.rulesEvaluated
  let files := Decimal.intText r.filesScanned
  [s!"Rules: {rules} enabled", s!"Files: {files} scanned", ""]

/-- The lines behind the head. -/
def textBody (r : Report) : List Text :=
  let files := Decimal.intText r.filesScanned
  if r.findings.isEmpty then [s!"✓ No problems found ({files} files, {r.seconds})"]
  else
    let ending : List Text := ["", s!"{r.tally} in {files} files ({r.seconds})"]
    r.findings.map textLine ++ ending

/-- The report as text. -/
def text (r : Report) : Text :=
  Text.joinLines (r.textHead ++ r.textBody)

end UnderscoreLint.Report
