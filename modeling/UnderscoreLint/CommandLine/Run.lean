import UnderscoreLint.CommandLine.Invocation
import UnderscoreLint.CommandLine.Stream
import UnderscoreLint.Lint.Run
import UnderscoreLint.Report.Document
import UnderscoreLint.Report.Porcelain
import UnderscoreLint.Report.Table
import UnderscoreLint.Report.Text

/-!
# Running the program

`run` computes everything that an invocation of the program does: what it writes to the
standard output and to the standard error, and the code it exits with. It is a function of
the arguments, the machine, the readings of the clock, and the streams that it writes to.

The code is two if the arguments are wrong or the run ends with an error that is told; one if
errors or warnings were found that should make it fail, or if something went wrong that is not
told; and zero otherwise. That a report cannot be written is among the things that are not told.
-/

namespace UnderscoreLint.CommandLine

/-- What goes wrong without being told. -/
inductive Failure where
  | run (e : RunError)
  | print (e : PrintError)

/-- What is visible of an invocation when it is over. -/
structure Outcome where
  exitCode : Nat := 0
  stdout : String := ""
  stderr : String := ""
  /-- What went wrong without being told. -/
  failure : Option Failure := none

/-- The version of the program. -/
def version : String := "0.3.0"

/-- The configuration that is used if it is there and no other is asked for. -/
def defaultConfig : String := ".solnaming.yml"

/-- What is written for a report, piece by piece. -/
def Format.pieces (f : Format) (streams : Streams) (r : Report) : List (Option Text) :=
  match f with
  | .rich => r.panels.map streams.console.render?
  | .text => streams.out.echo r.text
  | .json => streams.out.echo r.json
  | .porcelain => streams.out.echo r.porcelain

/-- The log as the user sees it: everything in full, or warnings alone by their text. -/
def logText (verbose : Bool) (log : Log) : Text :=
  let lines :=
    if verbose then log.toList.map LogLine.full
    else (log.toList.filter (·.level == .warning)).map (·.text)
  Text.join (lines.map (· ++ "\n"))

/-- What is written of a report. A quiet run writes the errors, and nothing if there are none. -/
def output (quiet : Bool) (streams : Streams) (f : Format) (r : Report) : List (Option Text) :=
  if quiet then if r.errors.isEmpty then [] else f.pieces streams r.errorsOnly
  else f.pieces streams r

/-- The code that a report is exited with. -/
def LintOptions.exitCode (o : LintOptions) (r : Report) : Nat :=
  if (o.strict && !r.errors.isEmpty) || (o.failOnWarn && !r.warnings.isEmpty) then 1 else 0

/-- The format of a lint: for a terminal the table, and for anything else the lines for
scripts, unless another one is asked for. -/
def LintOptions.chosenFormat (o : LintOptions) (streams : Streams) : Format :=
  o.format.getD (if streams.out.isTerminal then .rich else .porcelain)

/-- Writes pieces and exits with a code, or with one if they cannot all be written. `told` went to
the standard error before. -/
def conclude (streams : Streams) (told : Text) (code : Nat) (pieces : List (Option Text)) :
    Outcome :=
  match streams.out.write pieces with
  | (written, none) =>
    { exitCode := code, stdout := written, stderr := streams.err.escaped told }
  | (written, some e) =>
    { exitCode := 1, stdout := written, stderr := streams.err.escaped told,
      failure := some (.print e) }

/-- What a lint does with the result of its run. `told` went to the standard error before. -/
def LintOptions.conclusion (o : LintOptions) (streams : Streams) (quiet : Bool) (told : Text) :
    Except RunError Report → Outcome
  | .ok report =>
    conclude streams told (o.exitCode report)
      (output quiet streams (o.chosenFormat streams) report)
  | .error (.lint e) =>
    { exitCode := 2
      stderr := streams.err.escaped (told ++ streams.err.line ("Error: " ++ e.message)) }
  | .error e => { exitCode := 1, stderr := streams.err.escaped told, failure := some (.run e) }

/-- Lints files. -/
def runLint (host : Host) (clock : Clock) (streams : Streams) (verbose quiet : Bool)
    (o : LintOptions) : Outcome :=
  let source := SettingsSource.file (o.config.getD defaultConfig)
  let (result, log) := (lint host source o.paths clock).runFrom #[]
  o.conclusion streams quiet (logText verbose log) result

/-- The lines that tell about the rules: the id of each, and the events it listens to. -/
def ruleLines : List Text :=
  Convention.all.flatMap fun c =>
    let table : Table Check := Table.empty.onAll c.subscriptions
    [c.id, "  " ++ Text.intercalate ", " (table.events.map Event.name)]

/-- Runs the program. -/
def run (host : Host) (clock : Clock) (streams : Streams) (args : List String) : Outcome :=
  match Invocation.parse host.toFiles args with
  | .error (.usage e) => { exitCode := 2, stderr := streams.err.escaped (streams.err.line e.text) }
  | .error .nullInPath => { exitCode := 1, failure := some (.run .nullInPath) }
  | .ok i =>
    let echo (lines : List Text) := conclude streams "" 0 (lines.map (some ∘ streams.out.line))
    match i.command with
    | .version => echo [s!"{program}, version {version}"]
    | .rules => echo ruleLines
    | .lint o => runLint host clock streams i.verbose i.quiet o

/-- The paths that an invocation may ask about: each argument, each value attached to an
option, and the default configuration, as they are written and in their shortest form. -/
def pathsAsked (args : List String) : List String :=
  let written := defaultConfig :: args ++ args.filterMap fun a => (splitValue a).2
  written ++ written.map Path.normalise

end UnderscoreLint.CommandLine
