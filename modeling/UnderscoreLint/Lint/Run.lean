import UnderscoreLint.Lint.Load
import UnderscoreLint.Report.Finding

/-!
# Runs

A run resolves its configuration first and then lints one file after the other. The first
thing that goes wrong ends it.
-/

namespace UnderscoreLint

/-- Where the settings of a run come from. -/
inductive SettingsSource where
  | given (s : Settings)
  | file (path : String)
  | none

/-- The two readings of the clock around a run, in seconds. -/
structure Clock where
  start : Float := 0.0
  finish : Float := 0.0

/-- The time between the readings, in milliseconds. -/
def Clock.elapsed (c : Clock) : Float :=
  (c.finish - c.start) * 1000.0

/-- The run error of a configuration that is not there. -/
def RunError.ofConfig : ConfigFault → RunError
  | .error e => .lint (.invalidConfig e)
  | e => .config e

/-- The run error of a tree that could not be linted. -/
def RunError.ofTree : TreeError → RunError
  | .rules e => .lint (.invalidRules e)
  | .walk e => .walk e

/-- The settings of a run. -/
def SettingsSource.resolve (host : Host) : SettingsSource → Except RunError Settings
  | .given s => .ok s
  | .none => .ok (Config.mk []).settings
  | .file path =>
    match Config.load host path with
    | .ok c => .ok c.settings
    | .error e => .error (.ofConfig e)

/-- Lints one file. -/
def lintFile (host : Host) (s : Settings) (path : String) : Logged RunError (List Finding) := do
  let tree ← loadTree host path
  let found ← ExceptT.adapt RunError.ofTree (lintTree s tree)
  let count := Decimal.natText found.length
  logLine .debug linterSource s!"{path}: {count} diagnostics"
  return found.map (⟨path, ·⟩)

/-- Lints files one after the other. -/
def lintFiles (host : Host) (s : Settings) : List String → Logged RunError (List Finding)
  | [] => pure []
  | path :: rest => do
    let first ← lintFile host s path
    let others ← lintFiles host s rest
    return first ++ others

/-- Lints files and reports. The rules are counted at the end. -/
def lint (host : Host) (source : SettingsSource) (paths : List String) (clock : Clock) :
    Logged RunError Report :=
  match source.resolve host with
  | .error e => throw e
  | .ok s => do
    let findings ← lintFiles host s paths
    match s.enabled with
    | .none => throw .unlistedRules
    | .some ids => return {
      findings
      rulesEvaluated := ids.length
      filesScanned := paths.length
      elapsed := clock.elapsed }

end UnderscoreLint
