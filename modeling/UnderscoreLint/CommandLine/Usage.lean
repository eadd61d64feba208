import UnderscoreLint.CommandLine.Options
import UnderscoreLint.Text.Quoted

/-!
# Wrong use of the command line

What can be wrong with the arguments, and how the user is told: how the command is used,
where there is help, and what is wrong. An option without its value, or with one it does not
take, is told without the first two.
-/

namespace UnderscoreLint.CommandLine

/-- The name of the program. -/
def program : String := "solnaming"

/-- The page of the manual that a mistake belongs to. -/
inductive Page where
  | main
  | lint
  | rules
  deriving DecidableEq, Repr

/-- How a command is used. -/
def Page.usage : Page → String
  | .main => program ++ " [OPTIONS] COMMAND [ARGS]..."
  | .lint => program ++ " lint [OPTIONS] PATHS..."
  | .rules => program ++ " rules [OPTIONS]"

/-- The command that a page is about. -/
def Page.command : Page → String
  | .main => program
  | .lint => program ++ " lint"
  | .rules => program ++ " rules"

/-- What is wrong with the arguments. -/
inductive Mistake where
  | option (e : OptionError)
  | missingCommand
  | unknownCommand (name : String)
  | missingPaths
  /-- A file that is not there, as the value of a parameter. -/
  | missingFile (parameter path : String)
  /-- A directory in place of a file. -/
  | directory (parameter path : String)
  /-- A file that may not be opened. -/
  | deniedFile (parameter path : String)
  | badFormat (value : String) (formats : List String)
  | extraArguments (args : List String)
  deriving DecidableEq, Repr

/-- The words of a mistake. -/
def Mistake.message : Mistake → String
  | .option (.unknown name) => s!"No such option {Text.quoted name}."
  | .option (.needsValue name) => s!"Option {Text.quoted name} requires an argument."
  | .option (.takesNoValue name) => s!"Option {Text.quoted name} does not take a value."
  | .missingCommand => "Missing command."
  | .unknownCommand name => s!"No such command {Text.quoted name}."
  | .missingPaths => "Missing argument 'PATHS...'."
  | .missingFile parameter path =>
    s!"Invalid value for '{parameter}': File {Text.quoted path} does not exist."
  | .directory parameter path =>
    s!"Invalid value for '{parameter}': File {Text.quoted path} is a directory."
  | .deniedFile parameter path =>
    s!"Invalid value for '{parameter}': File {Text.quoted path} is not readable."
  | .badFormat value formats =>
    s!"Invalid value for '--format': {Text.quoted value} is not one of " ++
      ", ".intercalate (formats.map fun f : String => Text.quoted f) ++ "."
  | .extraArguments args =>
    let noun := if args.length = 1 then "argument" else "arguments"
    let shown := " ".intercalate args
    s!"Got unexpected extra {noun} ({shown})"

/-- Whether the user is reminded of the usage. -/
def Mistake.showsUsage : Mistake → Bool
  | .option (.needsValue _) | .option (.takesNoValue _) => false
  | _ => true

/-- A mistake and the page it belongs to. -/
structure UsageError where
  page : Page
  mistake : Mistake
  deriving DecidableEq, Repr

/-- What the user is told. -/
def UsageError.text (e : UsageError) : String :=
  let reminder :=
    if e.mistake.showsUsage then
      s!"Usage: {e.page.usage}\nTry '{e.page.command} --help' for help.\n\n"
    else ""
  reminder ++ s!"Error: {e.mistake.message}"

end UnderscoreLint.CommandLine
