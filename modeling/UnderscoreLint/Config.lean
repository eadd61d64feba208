import UnderscoreLint.Diagnostic
import UnderscoreLint.Files
import UnderscoreLint.Outline
import UnderscoreLint.Rule.Convention
import UnderscoreLint.Yaml.Error

/-!
# Configurations

A configuration says for single rules at which severity they report, or that they are off.
Rules it does not mention report at the severity they ask for.

`Config.parse` checks a loaded document and turns it into a configuration. The document is
absent altogether, or a mapping with a `version` that is one and, if it likes, `rules`. The
entries of `rules` are checked in order, and the first one that is wrong is reported. A bare
`off` is loaded as the boolean `false`, which is why that boolean is taken for it.

What a run needs of a configuration is which rules are enabled and which severities are to
be recorded: its `Settings`.
-/

namespace UnderscoreLint

/-- The setting that switches a rule off. -/
def Config.off : Text := "off"

/-- Settings of rules by id, in the order of the document. -/
structure Config where
  rules : List (Text × Text) := []
  deriving DecidableEq, Repr

/-- What a run is told: the ids of the rules to run, all of them if there is no list, and the
severities to record. -/
structure Settings where
  enabled : Option (List Text)
  overrides : List (Text × Text)
  deriving DecidableEq, Repr

/-- Why a document is no configuration. Each error names the document. -/
inductive ConfigError where
  | notAMapping (source : Text)
  | missingVersion (source : Text)
  | unsupportedVersion (source : Text) (version : Datum)
  | rulesNotAMapping (source : Text)
  | unknownRule (source id : Text)
  | invalidSetting (source id setting : Text)
  /-- The document could not be loaded at all, for a reason that its reader has words for. -/
  | invalidDocument (source : Text) (reason : String)

/-- Why there is no configuration. -/
inductive ConfigFault where
  /-- The document is no configuration. -/
  | error (e : ConfigError)
  /-- The version is a list or a mapping, which cannot be compared. -/
  | version
  /-- What ought to be told cannot be shown. -/
  | unshown (h : Hindrance)
  /-- The file is no text, or the document goes too deep, or a scalar in it has no value. -/
  | document (e : Yaml.Error)
  /-- The file cannot be looked up or read. -/
  | file (e : FileError)

namespace Config

/-- The version of documents that are understood. -/
def version : Int := 1

/-- The settings a document can give to a rule. -/
def validSettings : List Text := [Severity.error, off, Severity.warn]

/-- Sorts texts. -/
def sorted (texts : List Text) : List Text :=
  texts.mergeSort fun a b => !decide (b < a)

/-- A list of texts as it is shown. -/
def listLiteral (texts : List Text) : String :=
  (Datum.list (texts.map Datum.text)).literal

/-- The ids that have settings turned on. -/
def enabled (c : Config) : List Text :=
  Convention.ids.filter fun id => c.rules.lookup id != some off

/-- The settings that are severities. -/
def overrides (c : Config) : List (Text × Text) :=
  c.rules.filter fun r => r.2 != off

/-- What a run is told by a configuration. -/
def settings (c : Config) : Settings :=
  ⟨some c.enabled, c.overrides⟩

end Config

/-- The words of a configuration error. -/
def ConfigError.message : ConfigError → Text
  | .notAMapping source => source ++ " must be a YAML mapping"
  | .missingVersion source => source ++ ": missing required 'version' field"
  | .unsupportedVersion source version =>
    source ++ ": unsupported version " ++ version.shown ++ ", expected one of " ++
      (Datum.list [.scalar (.int Config.version)]).literal
  | .rulesNotAMapping source => source ++ ": 'rules' must be a mapping of rule id to setting"
  | .unknownRule source id =>
    source ++ ": unknown rule '" ++ id ++ "', must be one of " ++
      Config.listLiteral (Config.sorted Convention.ids)
  | .invalidSetting source id setting =>
    source ++ ": rule '" ++ id ++ "' has invalid setting '" ++ setting ++ "', must be one of " ++
      Config.listLiteral (Config.sorted Config.validSettings)
  | .invalidDocument source reason => source ++ ": invalid YAML: " ++ reason

namespace Config

/-- The text of a datum as it is shown, where `room` collections may be around its parts. -/
def textOf (room : Nat) (d : Datum) : Except ConfigFault Text :=
  match d.hindrance? room with
  | none => .ok d.shown
  | some h => .error (.unshown h)

variable {α : Type} [Outlined α]

/-- The setting that a part of a document gives to a rule. -/
def parseSetting (room : Nat) (source id : Text) (d : α) :
    Except ConfigFault Text :=
  match outline d with
  | .atom (.scalar (.bool false)) => .ok off
  | _ => do
    let setting ← textOf room (Outlined.datum d)
    if validSettings.contains setting then return setting
    else .error (.error (.invalidSetting source id setting))

/-- One entry of `rules`. -/
def parseRule (room : Nat) (source : Text) (entry : Atom × α) :
    Except ConfigFault (Text × Text) := do
  let id ← textOf room (.atom entry.1)
  if Convention.ids.contains id then
    let setting ← parseSetting room source id entry.2
    return (id, setting)
  else .error (.error (.unknownRule source id))

/-- The entries of `rules`. -/
def parseRules (room : Nat) (source : Text) (d : Option α) :
    Except ConfigFault (List (Text × Text)) :=
  match d.map outline with
  | none | some (.atom (.scalar .null)) => .ok []
  | some (.map entries) => entries.mapM (parseRule room source)
  | some _ => .error (.error (.rulesNotAMapping source))

/-- The error for a version that is not the right one. -/
def versionFault (room : Nat) (source : Text) (d : Datum) : ConfigFault :=
  match d.hindrance? room with
  | none => .error (.unsupportedVersion source d)
  | some h => .unshown h

/-- Checks the version of a document. Atoms and sets can be compared, and no set is right. -/
def checkVersion (room : Nat) (source : Text) (d : Option α) : Except ConfigFault Unit :=
  match d.map outline with
  | none | some (.atom (.scalar .null)) => .error (.error (.missingVersion source))
  | some (.atom a) =>
    if a.same (.scalar (.int version)) then .ok ()
    else .error (versionFault room source (.atom a))
  | some (.set members) => .error (versionFault room source (.set members))
  | some _ => .error .version

/-- Checks a loaded document called `source` and gives its configuration. What has to be told may
have `room` collections around its parts. -/
def parse (room : Nat) (d : α) (source : Text) : Except ConfigFault Config :=
  match outline d with
  | .atom (.scalar .null) => .ok {}
  | .map entries => do
    checkVersion room source (Outline.lookup "version" entries)
    let rules ← parseRules room source (Outline.lookup "rules" entries)
    return { rules }
  | _ => .error (.error (.notAMapping source))

end Config

end UnderscoreLint
