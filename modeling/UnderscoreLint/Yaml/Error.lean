/-!
# Errors of YAML texts

A text that is not YAML is malformed, and so is one that gives a node a tag that is not known
or does not suit it. A file that is no text has none to load. A document can go deeper than there
is room for. The other errors are about single scalars that have no value.
-/

namespace UnderscoreLint.Yaml

/-- Why a text is not loaded. -/
inductive Error where
  /-- It is not YAML, or a tag is not known or in the wrong place. -/
  | malformed
  /-- Its bytes are no text in UTF-8. -/
  | undecodable
  /-- Too many collections, merges or defaults wait for one another. -/
  | tooDeep
  /-- A number, a date or the code of a character has no value. -/
  | noValue
  /-- A number has no characters. -/
  | emptyNumber
  /-- A number or the code of a character is too large. -/
  | tooLarge
  /-- A word for a truth value is not known. -/
  | unknownWord
  /-- A time is not written like one. -/
  | notATime
  /-- A time is given by the default of a mapping. -/
  | timeByDefault
  deriving DecidableEq, Repr

end UnderscoreLint.Yaml
