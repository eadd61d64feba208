import UnderscoreLint.Node

/-!
# Diagnostics

A diagnostic is one finding of one rule: how grave it is, which rule it comes from,
what it says, and where the node it is attached to starts. Two diagnostics are the same
finding if all of that agrees; the node itself does not count, and a boolean coordinate
counts as its number.

A severity is a text and not a choice of two, because a configuration that was not
checked may set any text, and that text is reported as it is.
-/

namespace UnderscoreLint

/-- The severity of what has to be mended. -/
def Severity.error : Text := "error"

/-- The severity of what should be mended. -/
def Severity.warn : Text := "warn"

/-- A finding, attached to a node. -/
structure Diagnostic where
  severity : Text
  ruleId : Text
  message : Text
  location : Location
  node : Node
  deriving Inhabited

namespace Diagnostic

/-- Whether two coordinates are both missing or the same number. -/
def sameCoordinate (a b : Option Coordinate) : Bool :=
  a.map Coordinate.toInt == b.map Coordinate.toInt

/-- Whether two diagnostics are the same finding. -/
def same (a b : Diagnostic) : Bool :=
  a.severity == b.severity && a.ruleId == b.ruleId && a.message == b.message &&
    sameCoordinate a.location.line b.location.line &&
    sameCoordinate a.location.column b.location.column

/-- A coordinate as it is shown, and `None` for a missing one. -/
def coordinateLiteral (c : Option Coordinate) : String :=
  (c.map Coordinate.shown).getD Scalar.null.literal

/-- The fields of a diagnostic written out. -/
def literal (d : Diagnostic) : String :=
  "Diagnostic(severity=" ++ Text.quoted d.severity ++ ", rule_id=" ++ Text.quoted d.ruleId ++
    ", message=" ++ Text.quoted d.message ++
    ", line=" ++ coordinateLiteral d.location.line ++
    ", column=" ++ coordinateLiteral d.location.column ++ ")"

/-- Whether the finding has to be mended. -/
def isError (d : Diagnostic) : Bool :=
  d.severity == Severity.error

/-- Whether the finding should be mended. -/
def isWarning (d : Diagnostic) : Bool :=
  d.severity == Severity.warn

end Diagnostic

end UnderscoreLint
