import UnderscoreLint.Text

/-!
# Tokens of YAML

The units that a YAML text is cut into. Indentation is turned into tokens too: a deeper
line opens a sequence or a mapping, and a shallower one closes what was opened.
-/

namespace UnderscoreLint.Yaml

/-- A line that starts with a percent sign. -/
inductive Directive where
  /-- The version of the language, by its major number. -/
  | version (major : Nat)
  /-- A handle for tags, and what it stands for. -/
  | tag (handle expansion : String)
  /-- Anything else, which is ignored. -/
  | other
  deriving DecidableEq, Repr

/-- A unit of a YAML text. -/
inductive Token where
  | directive (d : Directive)
  | documentStart
  | documentEnd
  | streamEnd
  | blockSequenceStart
  | blockMappingStart
  | blockEnd
  | flowSequenceStart
  | flowSequenceEnd
  | flowMappingStart
  | flowMappingEnd
  | flowEntry
  | blockEntry
  | key
  | value
  | alias (name : String)
  | anchor (name : String)
  /-- A tag: its handle, unless it is written out, and the rest. -/
  | tag (handle : Option String) (suffix : String)
  /-- A scalar, and whether it stands without quotes or indicator. -/
  | scalar (text : Text) (plain : Bool)
  deriving DecidableEq, Repr

end UnderscoreLint.Yaml
