import UnderscoreLint.Config
import UnderscoreLint.Host
import UnderscoreLint.Json.Reader
import UnderscoreLint.Lint.Tree
import UnderscoreLint.Yaml.Load

/-!
# Loading the inputs of a run

A run reads configurations from YAML files and syntax trees from JSON files. A configuration
that is not there is the default one. A tree that cannot be loaded is an error, and a tree
without source positions is worth a warning.
-/

namespace UnderscoreLint

/-- Why a run ends without a report, as it is told to the user. -/
inductive LintError where
  | unreadable (path : String) (e : FileError)
  | invalidJson (path : String) (complaint : Json.Complaint) (position : Text.Position)
  | notATree (path : String)
  | invalidConfig (e : ConfigError)
  | invalidRules (e : RuleError)

/-- The words of a lint error. -/
def LintError.message : LintError → Text
  | .unreadable path e => s!"Cannot read {path}: {e.message path}"
  | .invalidJson path complaint position =>
    s!"{path}: invalid JSON: {Json.describe complaint position}"
  | .notATree path => s!"{path}: expected a JSON object with a 'type' field at the top level"
  | .invalidConfig e => "Invalid configuration: " ++ e.message
  | .invalidRules e => "Invalid configuration: " ++ e.message

/-- Why a run ends without a report. All but the first are not expected by anyone. -/
inductive RunError where
  | lint (e : LintError)
  /-- There is no configuration, for a reason that is not told. -/
  | config (e : ConfigFault)
  /-- A path has a null character in it. -/
  | nullInPath
  /-- A file is no text in UTF-8. -/
  | undecodable
  /-- A whole number of a tree has too many digits. -/
  | longInteger
  /-- Too many lists and objects of a tree are inside of one another. -/
  | tooDeep
  | walk (e : WalkError)
  /-- There is no list of the rules to run, so they cannot be counted. -/
  | unlistedRules

/-- Loads a configuration. What is no file, or is not there, is the default configuration. -/
def Config.load (host : Host) (path : String) : Except ConfigFault Config :=
  if Path.hasNull path then .ok {}
  else
    match (host.status path).isFile with
    | .error e => .error (.file e)
    | .ok false => .ok {}
    | .ok true =>
      match host.read path with
      | .error e => .error (.file e)
      | .ok content =>
        let source := Path.lastName path
        match Yaml.load host.limits content with
        | .ok none => Config.parse host.limits.shown Datum.null source
        | .ok (some d) => Config.parse host.limits.shown d source
        | .error .malformed =>
          .error (.error (.invalidDocument source (host.complaint path content)))
        | .error e => .error (.document e)

/-- Reads the tree of a JSON file. -/
def readTree (host : Host) (path : String) : Except RunError Value :=
  if Path.hasNull path then .error .nullInPath
  else
    match host.read path with
    | .error e => .error (.lint (.unreadable path e))
    | .ok content =>
      match decodeText? content with
      | none => .error .undecodable
      | some cs =>
        match Json.read host.limits.json cs with
        | .error (.malformed complaint position) =>
          .error (.lint (.invalidJson path complaint position))
        | .error .longInteger => .error .longInteger
        | .error .tooDeep => .error .tooDeep
        | .ok tree =>
          if tree.isMap && ((tree.attr? "type").bind Value.text?).isSome then .ok tree
          else .error (.lint (.notATree path))

/-- Reads a tree, and warns if it has no source positions. -/
def loadTree (host : Host) (path : String) : Logged RunError Value :=
  match readTree host path with
  | .error e => throw e
  | .ok tree => do
    if (tree.attr? "loc").isNone then
      logLine .warning linterSource
        s!"{path} has no location info; diagnostics will lack line numbers"
    return tree

end UnderscoreLint
