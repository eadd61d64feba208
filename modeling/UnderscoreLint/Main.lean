import UnderscoreLint.CommandLine.Run

/-!
# The program

Reads what the arguments may refer to, runs the program on it, and writes what it has to say.
Everything else is computed by `CommandLine.run`.
-/

namespace UnderscoreLint

/-- What the operating system says about a path. -/
def statusOnDisk (path : String) : IO FileStatus := do
  try
    return .file (← IO.FS.readBinFile path)
  catch
    | .inappropriateType _ code _ => return if code = 21 then .directory else .notDirectory
    | .invalidArgument _ code _ => return if code = 36 then .tooLong else .missing
    | .permissionDenied .. => return .denied
    | .hardwareFault .. => return .failing
    | _ => return .missing

/-- The machine, with the files that the arguments may refer to. -/
def hostOf (paths : List String) : IO Host := do
  let found ← paths.mapM fun path => do return (path, ← statusOnDisk path)
  return { status := fun path => (found.lookup path).getD .missing }

/-- The clock in seconds. -/
def secondsNow : IO Float := do
  return (← IO.monoNanosNow).toFloat / 1000000000.0

end UnderscoreLint

open UnderscoreLint in
/-- Runs the program on its arguments. -/
def main (args : List String) : IO UInt32 := do
  let start ← secondsNow
  let host ← hostOf (CommandLine.pathsAsked args)
  let streams : CommandLine.Streams := {
    out := { isTerminal := ← (← IO.getStdout).isTty }
    err := { isTerminal := ← (← IO.getStderr).isTty } }
  let outcome := CommandLine.run host ⟨start, ← secondsNow⟩ streams args
  IO.print outcome.stdout
  IO.eprint outcome.stderr
  return outcome.exitCode.toUInt32
