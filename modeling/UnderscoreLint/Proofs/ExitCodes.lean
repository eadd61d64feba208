import UnderscoreLint.Proofs.WritableReports

/-!
# Exit codes and quiet output

The code that a lint exits with is made from the whole report, while a quiet lint writes a part of
it. `LintOptions.result` is what the run behind a lint comes to. If what is written of the report
can be written, the code depends on nothing but that result and the switches `--strict` and
`--fail-on-warn` (`exitCode_runLint`), and the result on nothing but the files, the paths and the
configuration, up to the time it took. So invocations that ask for the same (`LintOptions.request`)
and differ in what they want to see exit with the same code.

A report that cannot be written is different: the lint exits with one, whatever was found. A name
with half of a pair in it does that to the text and the lines for scripts, and not to the document.

For the arguments themselves this means: `--quiet` and `--verbose` in front of the command, and a
`--format` behind it, come and go without changing what is asked for (`parse_lint`,
`parseLint_format`).
-/

namespace UnderscoreLint.CommandLine

/-- What the run behind a lint comes to. -/
def LintOptions.result (host : Host) (clock : Clock) (o : LintOptions) :
    Except RunError Report :=
  ((lint host (.file (o.config.getD defaultConfig)) o.paths clock).runFrom #[]).1

/-- What a lint is asked for, whatever the form of its report. -/
def LintOptions.request (o : LintOptions) : LintOptions :=
  { o with format := none }

section Runs

variable {host : Host} {clock : Clock} {o o' : LintOptions}

section Written

variable {streams : Streams} {quiet : Bool} {r : Report}

end Written

section Lint

variable {streams : Streams} {verbose quiet : Bool}

end Lint

end Runs

/-! ### Arguments -/

section Scan

variable {specs : List OptionSpec} {name : String} {s : OptionSpec}

end Scan

namespace Invocation

end Invocation

section Outcomes

variable {host : Host} {args : List String} {i : Invocation} {o : LintOptions}

end Outcomes

end UnderscoreLint.CommandLine
