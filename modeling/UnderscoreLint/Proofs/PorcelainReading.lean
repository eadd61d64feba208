import UnderscoreLint.Proofs.Numerals
import UnderscoreLint.Report.Porcelain

/-!
# Reading the report for scripts

The report for scripts escapes nothing, and still a script can read it: a line feed ends a line, and
the first five colons of a line end its fields, whatever the message behind them holds.
`Porcelain.read?` is that script. It gives back every finding without its node, if the texts in
front of the message have no colon and none of the texts has a line feed; coordinates never have
either.

A coordinate that is not known is an empty field. The others are shown by numerals or by the words
for truth values, and no numeral is such a word, so a field tells which coordinate was shown.
-/

namespace UnderscoreLint

namespace Text

/-- The string that a text is, unless there is a half in it. -/
def toString? (t : Text) : Option String :=
  (t.letters.mapM Letter.char?).map String.ofList

theorem toString?_ofString (s : String) : (s : Text).toString? = some s := by
  have hchars : ∀ cs : List Char, (cs.map Letter.char).mapM Letter.char? = some cs := by
    intro cs
    induction cs with
    | nil => rfl
    | cons c cs ih =>
        rw [List.map_cons, List.mapM_cons, ih]
        rfl
  rw [toString?, letters_ofString, hchars, Option.map_some, String.ofList_toList]

/-- Cuts a text at its first `n` separators. What follows the last cut stays in one piece. -/
def cutAt (sep : Letter) : (n : Nat) → List Letter → List Text
  | 0, ls => [⟨ls⟩]
  | n + 1, ls =>
    match ls.dropWhile (· ≠ sep) with
    | [] => [⟨ls⟩]
    | _ :: rest => ⟨ls.takeWhile (· ≠ sep)⟩ :: cutAt sep n rest

theorem cutAt_append {sep : Letter} {field : Text} (h : sep ∉ field.letters) (n : Nat)
    (rest : List Letter) :
    cutAt sep (n + 1) (field.letters ++ sep :: rest) = field :: cutAt sep n rest := by
  have hfield : ∀ l ∈ field.letters, decide (l ≠ sep) = true :=
    fun l hl => decide_eq_true (ne_of_mem_of_not_mem hl h)
  rw [cutAt, List.dropWhile_append_of_pos hfield, List.takeWhile_append_of_pos hfield]
  simp

/-- Fields without the separator are told apart, and the text behind them need not be without it. -/
theorem cutAt_intercalate {sep : Letter} {fields : List Text}
    (h : ∀ field ∈ fields, sep ∉ field.letters) (last : Text) :
    cutAt sep fields.length (intercalate ⟨[sep]⟩ (fields ++ [last])).letters =
      fields ++ [last] := by
  induction fields with
  | nil => simp [cutAt]
  | cons field fields ih =>
      obtain ⟨hfield, hfields⟩ := List.forall_mem_cons.1 h
      have hjoin : (intercalate ⟨[sep]⟩ (field :: fields ++ [last])).letters =
          field.letters ++ sep :: (intercalate ⟨[sep]⟩ (fields ++ [last])).letters := by
        cases fields <;> simp
      rw [hjoin, List.length_cons, cutAt_append hfield, ih hfields, List.cons_append]

end Text

/-- What is told of a finding: all but its node. -/
structure Finding.Facts where
  ruleId : Text
  severity : Text
  path : Text
  location : Location
  message : Text
  deriving DecidableEq

def Finding.facts (f : Finding) : Finding.Facts where
  ruleId := f.diagnostic.ruleId
  severity := f.diagnostic.severity
  path := f.path
  location := f.diagnostic.location
  message := f.diagnostic.message

/-- The texts of a finding have no line feed, and those in front of the message no colon. -/
def Finding.IsDivisible (f : Finding) : Prop :=
  (∀ text ∈ [f.diagnostic.ruleId, f.diagnostic.severity, f.path],
    .char ':' ∉ text.letters ∧ .char '\n' ∉ text.letters) ∧
  .char '\n' ∉ f.diagnostic.message.letters

namespace Porcelain

/-- The coordinate that a field shows; an empty field shows that there is none. -/
def coordinate? (field : Text) : Option (Option Coordinate) :=
  field.toString?.bind fun shown =>
    match Decimal.toInt? shown.toList with
    | some n => some (some (.int n))
    | none =>
      if shown = "" then some none
      else if shown = "True" then some (some (.bool true))
      else if shown = "False" then some (some (.bool false))
      else none

/-- The finding that a line is about. -/
def facts? (line : Text) : Option Finding.Facts :=
  match Text.cutAt (.char ':') 5 line.letters with
  | [ruleId, severity, path, line, column, message] => do
    let line ← coordinate? line
    let column ← coordinate? column
    return ⟨ruleId, severity, path, ⟨line, column⟩, message⟩
  | _ => none

/-- The lines of a report. The empty text has none. -/
def lines (text : Text) : List Text :=
  if text = "" then [] else (text.letters.splitOn (.char '\n')).map Text.mk

/-- The findings that a report is about. -/
def read? (text : Text) : Option (List Finding.Facts) :=
  (lines text).mapM facts?

theorem coordinate?_porcelainCoordinate (c : Option Coordinate) :
    coordinate? (Report.porcelainCoordinate c) = some c := by
  rw [coordinate?, Text.toString?_ofString, Option.bind_some]
  rcases c with _ | n | b
  · rfl
  · have hfield : (Report.porcelainCoordinate (some (.int n))).toList = Decimal.ofInt n :=
      String.toList_ofList
    rw [hfield, Decimal.toInt?_ofInt]
  · cases b <;> rfl

theorem not_mem_porcelainCoordinate (c : Option Coordinate) :
    ':' ∉ (Report.porcelainCoordinate c).toList ∧ '\n' ∉ (Report.porcelainCoordinate c).toList := by
  rcases c with _ | n | b
  · decide
  · have hfield : (Report.porcelainCoordinate (some (.int n))).toList = Decimal.ofInt n :=
      String.toList_ofList
    rw [hfield]
    exact ⟨fun h => absurd (Decimal.isDigit_of_mem_ofInt h) (by decide),
      fun h => absurd (Decimal.isDigit_of_mem_ofInt h) (by decide)⟩
  · cases b <;> decide

end Porcelain

namespace Finding.IsDivisible

open Report Porcelain

variable {f : Finding}

/-- The first five colons of the line of a finding end its fields. -/
theorem cutAt_porcelainLine (h : f.IsDivisible) :
    Text.cutAt (.char ':') 5 (porcelainLine f).letters =
      [f.diagnostic.ruleId, f.diagnostic.severity, f.path,
        porcelainCoordinate f.diagnostic.location.line,
        porcelainCoordinate f.diagnostic.location.column, f.diagnostic.message] := by
  let fields : List Text := [f.diagnostic.ruleId, f.diagnostic.severity, f.path,
    porcelainCoordinate f.diagnostic.location.line,
    porcelainCoordinate f.diagnostic.location.column]
  have hfields : ∀ field ∈ fields, .char ':' ∉ field.letters := by
    have hline := (not_mem_porcelainCoordinate f.diagnostic.location.line).1
    have hcolumn := (not_mem_porcelainCoordinate f.diagnostic.location.column).1
    simpa [fields, hline, hcolumn, and_assoc] using fun text ht => (h.1 text ht).1
  exact Text.cutAt_intercalate hfields f.diagnostic.message

theorem facts?_porcelainLine (h : f.IsDivisible) : facts? (porcelainLine f) = some f.facts := by
  rw [facts?, h.cutAt_porcelainLine]
  simp [coordinate?_porcelainCoordinate, Finding.facts]

theorem not_mem_porcelainLine (h : f.IsDivisible) : .char '\n' ∉ (porcelainLine f).letters := by
  have hline := (not_mem_porcelainCoordinate f.diagnostic.location.line).2
  have hcolumn := (not_mem_porcelainCoordinate f.diagnostic.location.column).2
  obtain ⟨hfields, hmessage⟩ := h
  simp only [List.forall_mem_cons] at hfields
  simp [porcelainLine, hline, hcolumn, hfields, hmessage]

end Finding.IsDivisible

theorem Report.porcelainLine_ne_empty (f : Finding) : porcelainLine f ≠ "" := by
  simp [Text.eq_empty_iff, porcelainLine]

/-- The report is empty exactly if there are no findings. -/
theorem Report.porcelain_eq_empty_iff (r : Report) : r.porcelain = "" ↔ r.findings = [] := by
  unfold porcelain Text.joinLines
  rcases r.findings with _ | ⟨f, _ | ⟨g, fs⟩⟩
  · simp
  · simp [porcelainLine_ne_empty]
  · simp [Text.eq_empty_iff]

theorem Report.letters_porcelain (r : Report) :
    r.porcelain.letters =
      [.char '\n'].intercalate (r.findings.map fun f => (porcelainLine f).letters) := by
  simp [porcelain, Text.joinLines, Text.intercalate, Function.comp_def]

theorem Report.lines_porcelain {r : Report} (h : ∀ f ∈ r.findings, f.IsDivisible) :
    Porcelain.lines r.porcelain = r.findings.map porcelainLine := by
  unfold Porcelain.lines
  by_cases hnone : r.findings = []
  · rw [if_pos (r.porcelain_eq_empty_iff.2 hnone), hnone, List.map_nil]
  · rw [if_neg (mt r.porcelain_eq_empty_iff.1 hnone), letters_porcelain,
      List.splitOn_intercalate (Letter.char '\n') ?_ (by simpa using hnone), List.map_map]
    · rfl
    · simpa using fun f hf => (h f hf).not_mem_porcelainLine

theorem Report.read?_porcelain {r : Report} (h : ∀ f ∈ r.findings, f.IsDivisible) :
    Porcelain.read? r.porcelain = some (r.findings.map Finding.facts) := by
  rw [Porcelain.read?, lines_porcelain h]
  generalize r.findings = fs at h
  induction fs with
  | nil => rfl
  | cons f fs ih =>
      obtain ⟨hf, hfs⟩ := List.forall_mem_cons.1 h
      rw [List.map_cons, List.mapM_cons, hf.facts?_porcelainLine, ih hfs]
      rfl

/-- The report for scripts can be read back, if the texts of its findings are divisible. It has one
line for each finding, in order, and is empty exactly if there is no finding. The first five colons
of a line end the fields of its finding, and the fields of the line and the column show the
coordinates. So reports that are written alike have the same findings, up to their nodes. -/
theorem Report.porcelain_read_back {r : Report} (h : ∀ f ∈ r.findings, f.IsDivisible) :
    (r.porcelain = "" ↔ r.findings = []) ∧
      Porcelain.lines r.porcelain = r.findings.map porcelainLine ∧
      (∀ f ∈ r.findings, ∃ line column,
        Text.cutAt (.char ':') 5 (porcelainLine f).letters =
          [f.diagnostic.ruleId, f.diagnostic.severity, f.path, line, column,
            f.diagnostic.message] ∧
        Porcelain.coordinate? line = some f.diagnostic.location.line ∧
        Porcelain.coordinate? column = some f.diagnostic.location.column) ∧
      Porcelain.read? r.porcelain = some (r.findings.map Finding.facts) ∧
      ∀ r' : Report, (∀ f ∈ r'.findings, f.IsDivisible) → r'.porcelain = r.porcelain →
        r'.findings.map Finding.facts = r.findings.map Finding.facts := by
  refine ⟨r.porcelain_eq_empty_iff, lines_porcelain h, ?_, read?_porcelain h, ?_⟩
  · intro f hf
    exact ⟨_, _, (h f hf).cutAt_porcelainLine,
      Porcelain.coordinate?_porcelainCoordinate _, Porcelain.coordinate?_porcelainCoordinate _⟩
  · intro r' h' hsame
    have hread := read?_porcelain h'
    rw [hsame, read?_porcelain h] at hread
    exact (Option.some.inj hread).symm

/-- A finding with colons in its message and a line before the first one, and a finding of which
only the column is known, by a truth value. -/
def colonsAndCoordinates : Report where
  findings := [
    ⟨"a.json", ⟨"error", "r", "::x: y:", ⟨some (.int (-12)), some (.int 0)⟩, default⟩⟩,
    ⟨"d/b.json", ⟨"warn", "", "", ⟨none, some (.bool true)⟩, default⟩⟩]

theorem Report.porcelain_read_back_colonsAndCoordinates :
    (∀ f ∈ colonsAndCoordinates.findings, f.IsDivisible) ∧
      colonsAndCoordinates.porcelain = "r:error:a.json:-12:0:::x: y:\n:warn:d/b.json::True:" ∧
      Porcelain.read? "r:error:a.json:-12:0:::x: y:\n:warn:d/b.json::True:" =
        some [⟨"r", "error", "a.json", ⟨some (.int (-12)), some (.int 0)⟩, "::x: y:"⟩,
          ⟨"", "warn", "d/b.json", ⟨none, some (.bool true)⟩, ""⟩] := by
  have hdivisible : ∀ f ∈ colonsAndCoordinates.findings, f.IsDivisible := by
    unfold Finding.IsDivisible
    decide
  have htext : colonsAndCoordinates.porcelain =
      "r:error:a.json:-12:0:::x: y:\n:warn:d/b.json::True:" := by
    decide +kernel
  obtain ⟨-, -, -, hread, -⟩ := porcelain_read_back hdivisible
  rw [htext] at hread
  exact ⟨hdivisible, htext, hread⟩

end UnderscoreLint
