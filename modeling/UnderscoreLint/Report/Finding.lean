import UnderscoreLint.Diagnostic

/-!
# Reports

A report is what a run has to say: its findings with the files they come from, how many
rules and files took part, and how long it took.
-/

namespace UnderscoreLint

/-- A diagnostic and the file it comes from. -/
structure Finding where
  path : Text
  diagnostic : Diagnostic

/-- The result of a run. -/
structure Report where
  findings : List Finding := []
  rulesEvaluated : Int := 0
  filesScanned : Int := 0
  /-- The duration in milliseconds. -/
  elapsed : Float := 0.0

namespace Finding

/-- The file and, as far as they are known, the line and the column. A column without a line
is not shown. -/
def place (f : Finding) : Text :=
  match f.diagnostic.location.line, f.diagnostic.location.column with
  | none, _ => f.path
  | some line, none => f.path ++ ":" ++ line.shown
  | some line, some column => f.path ++ ":" ++ line.shown ++ ":" ++ column.shown

/-- Whether the finding has to be mended. -/
def isError (f : Finding) : Bool :=
  f.diagnostic.isError

/-- Whether the finding should be mended. -/
def isWarning (f : Finding) : Bool :=
  f.diagnostic.isWarning

end Finding

namespace Report

/-- The findings that are errors. -/
def errors (r : Report) : List Finding :=
  r.findings.filter Finding.isError

/-- The findings that are warnings. -/
def warnings (r : Report) : List Finding :=
  r.findings.filter Finding.isWarning

/-- The report with its errors only. -/
def errorsOnly (r : Report) : Report :=
  { r with findings := r.errors }

/-- The number of findings, and of errors and warnings among them, in words. -/
def tally (r : Report) : String :=
  let all := Decimal.natText r.findings.length
  let errors := Decimal.natText r.errors.length
  let warnings := Decimal.natText r.warnings.length
  s!"{all} problems ({errors} errors, {warnings} warnings)"

end Report

end UnderscoreLint
