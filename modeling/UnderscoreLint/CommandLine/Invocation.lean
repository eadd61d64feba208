import UnderscoreLint.CommandLine.Usage
import UnderscoreLint.Files

/-!
# What is asked for on the command line

`Invocation.parse` turns arguments into what they ask for. Options of the program stand before
the command, and those of the command behind it. Mistakes in the form of the arguments are
found first; then the values are looked at, those of options in the order of the command line
and the paths last. The first mistake is told.
-/

namespace UnderscoreLint.CommandLine

/-- The formats of a report. -/
inductive Format where
  | rich
  | text
  | json
  | porcelain
  deriving DecidableEq, Repr

/-- The name of a format. -/
def Format.name : Format → String
  | .rich => "rich"
  | .text => "text"
  | .json => "json"
  | .porcelain => "porcelain"

/-- All formats. -/
def Format.all : List Format := [.rich, .text, .json, .porcelain]

/-- The format of that name. -/
def Format.ofName? (name : String) : Option Format :=
  Format.all.find? fun f => f.name == name

/-- What a lint is asked to do. -/
structure LintOptions where
  paths : List String
  format : Option Format := none
  config : Option String := none
  /-- Fail if there are errors. -/
  strict : Bool := false
  /-- Fail if there are warnings. -/
  failOnWarn : Bool := false
  deriving DecidableEq, Repr

/-- What the program is asked to do. -/
inductive Command where
  /-- Tell the version. -/
  | version
  /-- List the rules. -/
  | rules
  /-- Lint files. -/
  | lint (options : LintOptions)
  deriving DecidableEq, Repr

/-- A command, and how much to tell beside its results. -/
structure Invocation where
  command : Command
  verbose : Bool := false
  quiet : Bool := false
  deriving DecidableEq, Repr

/-- Why arguments are not acted on. -/
inductive Refusal where
  /-- A mistake, of which the user is told. -/
  | usage (e : UsageError)
  /-- A path has a null character in it, of which nobody is told. -/
  | nullInPath
  deriving DecidableEq, Repr

namespace Invocation

/-- The options of the program. -/
def mainSpecs : List OptionSpec := [
  { long := "--version" },
  { long := "--verbose", short := some 'v' },
  { long := "--quiet", short := some 'q' }]

/-- The options of a lint. -/
def lintSpecs : List OptionSpec := [
  { long := "--format", takesValue := true },
  { long := "--config", takesValue := true },
  { long := "--strict" },
  { long := "--fail-on-warn" }]

/-- Ends with a mistake in the arguments of a lint. -/
def refuseLint {α : Type} (m : Mistake) : Except Refusal α :=
  .error (.usage ⟨.lint, m⟩)

/-- Checks that a path leads to a file that may be opened. -/
def checkFile (files : Files) (parameter path : String) : Except Refusal Unit :=
  if Path.hasNull path then .error .nullInPath
  else
    match files.status path with
    | .file _ | .failing => .ok ()
    | .directory => refuseLint (.directory parameter path)
    | .denied => refuseLint (.deniedFile parameter path)
    | .missing | .notDirectory | .tooLong | .barred =>
      refuseLint (.missingFile parameter path)

/-- Checks the value of an option of a lint. -/
def checkOption (files : Files) (given : List GivenOption) (long : String) : Except Refusal Unit :=
  match long, lastValue? given long with
  | "--format", some value =>
    if (Format.ofName? value).isSome then .ok ()
    else refuseLint (.badFormat value (Format.all.map Format.name))
  | "--config", some path => checkFile files "--config" path
  | _, _ => .ok ()

/-- Checks the paths of a lint. -/
def checkPaths (files : Files) (paths : List String) : Except Refusal Unit :=
  if paths = [] then refuseLint .missingPaths
  else paths.forM (checkFile files "PATHS...")

/-- Reads the arguments of a lint. -/
def parseLint (files : Files) (args : List String) : Except Refusal LintOptions :=
  match scan lintSpecs true args with
  | .error e => refuseLint (.option e)
  | .ok (given, paths) => do
    (givenNames given).forM (checkOption files given)
    checkPaths files paths
    return {
      paths := paths.map Path.normalise
      format := (lastValue? given "--format").bind Format.ofName?
      config := (lastValue? given "--config").map Path.normalise
      strict := isGiven given "--strict"
      failOnWarn := isGiven given "--fail-on-warn" }

/-- Reads the arguments of a list of rules. -/
def parseRules (args : List String) : Except Refusal Unit :=
  match scan [] true args with
  | .error e => .error (.usage ⟨.rules, .option e⟩)
  | .ok (_, []) => .ok ()
  | .ok (_, rest) => .error (.usage ⟨.rules, .extraArguments rest⟩)

/-- Reads arguments that start with no known command. They may be options of the program that
stand behind two dashes; asking for the version works there too. -/
def parseStray (args : List String) : Except Refusal Command :=
  match scan mainSpecs false args with
  | .error e => .error (.usage ⟨.main, .option e⟩)
  | .ok (given, _) =>
    if isGiven given "--version" then .ok .version
    else .error (.usage ⟨.main, .unknownCommand (args.headD "")⟩)

/-- Reads a command and its arguments. -/
def parseCommand (files : Files) : List String → Except Refusal Command
  | [] => .error (.usage ⟨.main, .missingCommand⟩)
  | "lint" :: args => return .lint (← parseLint files args)
  | "rules" :: args => do
    parseRules args
    return .rules
  | args => parseStray args

/-- Reads the arguments of the program. Asking for the version makes the rest irrelevant. -/
def parse (files : Files) (args : List String) : Except Refusal Invocation :=
  match scan mainSpecs false args with
  | .error e => .error (.usage ⟨.main, .option e⟩)
  | .ok (given, rest) => do
    let command ←
      if isGiven given "--version" then pure .version else parseCommand files rest
    return {
      command
      verbose := isGiven given "--verbose"
      quiet := isGiven given "--quiet" }

end Invocation

end UnderscoreLint.CommandLine
