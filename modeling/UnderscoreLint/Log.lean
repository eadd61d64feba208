import UnderscoreLint.Action
import UnderscoreLint.Text

/-!
# Logs

What a run tells about its progress, apart from its findings. A line has a level, the
name of the part of the program it comes from, and a text. The log of a run that fails is
kept up to the failure.
-/

namespace UnderscoreLint

/-- How much a line of the log matters. -/
inductive LogLevel where
  | debug
  | warning
  deriving DecidableEq, Repr

/-- The name of a level. -/
def LogLevel.name : LogLevel → String
  | .debug => "DEBUG"
  | .warning => "WARNING"

/-- A line of the log. -/
structure LogLine where
  level : LogLevel
  source : String
  text : Text
  deriving DecidableEq, Repr

/-- A line with its level and source. -/
def LogLine.full (l : LogLine) : Text :=
  l.level.name ++ " " ++ l.source ++ ": " ++ l.text

/-- The lines of a run so far. -/
abbrev Log := Array LogLine

/-- An action that may write to the log. -/
abbrev Logged (ε α : Type) := Action Log ε α

/-- Writes a line. -/
def logLine {ε : Type} (level : LogLevel) (source : String) (text : Text) : Logged ε Unit :=
  modify fun log => log.push ⟨level, source, text⟩

end UnderscoreLint
