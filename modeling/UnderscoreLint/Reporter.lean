import UnderscoreLint.Diagnostic

/-!
# Reporters

A reporter keeps the diagnostics of a run in the order of their arrival. It may be told
to record the findings of a rule at another severity than the rule asks for.
-/

namespace UnderscoreLint

/-- The diagnostics so far, and the severities to record instead of those asked for. -/
structure Reporter where
  overrides : List (Text × Text) := []
  diagnostics : Array Diagnostic := #[]
  deriving Inhabited

namespace Reporter

/-- The severity a finding of a rule is recorded at. -/
def severity (r : Reporter) (ruleId asked : Text) : Text :=
  (r.overrides.lookup ruleId).getD asked

/-- The diagnostic that a finding is recorded as. -/
def diagnostic (r : Reporter) (asked : Text) (n : Node) (ruleId message : Text) : Diagnostic :=
  { severity := r.severity ruleId asked
    ruleId := ruleId
    message := message
    location := n.location
    node := n }

/-- Records a finding. -/
def report (r : Reporter) (asked : Text) (n : Node) (ruleId message : Text) : Reporter :=
  { r with diagnostics := r.diagnostics.push (r.diagnostic asked n ruleId message) }

/-- The recorded errors. -/
def errors (r : Reporter) : List Diagnostic :=
  r.diagnostics.toList.filter Diagnostic.isError

/-- The recorded warnings. -/
def warnings (r : Reporter) : List Diagnostic :=
  r.diagnostics.toList.filter Diagnostic.isWarning

@[simp] theorem toList_diagnostics_report (r : Reporter) (asked : Text) (n : Node)
    (ruleId message : Text) :
    (r.report asked n ruleId message).diagnostics.toList =
      r.diagnostics.toList ++ [r.diagnostic asked n ruleId message] := by
  simp [report]

end Reporter

end UnderscoreLint
