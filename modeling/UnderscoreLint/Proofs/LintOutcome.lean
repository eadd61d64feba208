import Mathlib.Algebra.GroupWithZero.Nat
import UnderscoreLint.Proofs.RuleIndependence

/-!
# The outcome of linting a mapping

`Settings.answers s tree` lists the answers of the conventions that the settings `s` ask for, at
every place of the tree in the order of entering. Everything that linting a mapping gives is
read off this list: it fails if an answer is missing (`verdict`), and otherwise it returns what the
answers found (`found`) and has visited as many nodes as there are places with a kind
(`Place.visited`).

Two runs are therefore compared by comparing two lists of answers. `Alike R` relates their
outcomes: the runs fail for the same reason, or both of them return and `R` relates the results.
-/

namespace UnderscoreLint

/-- All findings among answers. -/
def found (answers : List Answer) : List Diagnostic :=
  answers.flatMap fun a => a.getD []

theorem found_append (answers others : List Answer) :
    found (answers ++ others) = found answers ++ found others :=
  List.flatMap_append

/-- The number of nodes with a kind at and below a place. -/
def Place.visited (p : Place) : Nat :=
  p.preorder.countP fun q => q.node.kind?.isSome

theorem Place.visited_eq (p : Place) :
    p.visited = p.node.visits + (p.below.map visited).sum := by
  rw [visited, preorder_eq, ← List.singleton_append, List.countP_append, List.countP_flatMap]
  congr 1
  simp [Node.visits, List.countP_cons]

theorem Place.entries_script (p : Place) : Node.entries p.node.script = p.visited := by
  induction p using below_induction with
  | step p ih =>
      have hbelow : Node.entries (p.node.children.flatMap Node.script) =
          (p.below.map visited).sum := by
        rw [Node.entries, List.countP_flatMap, ← List.map_congr_left ih, below, List.map_map]
        rfl
      rw [Node.script_eq, Node.entries_append, Node.entries_append, Node.entries_enter,
        Node.entries_exit, hbelow, visited_eq, Nat.add_zero]

/-- The conventions that settings ask for, in the order of the registry. -/
def Settings.conventions (s : Settings) : List Convention :=
  Convention.among (s.enabled.getD Convention.ids)

/-- The answers that linting a mapping asks for, in order. -/
def Settings.answers (s : Settings) (tree : Value) : List Answer :=
  (Place.top ⟨[], tree⟩).preorder.flatMap (Place.answersOf s.overrides s.conventions)

theorem Settings.found_answers (s : Settings) (tree : Value) :
    found (s.answers tree) = (Place.top ⟨[], tree⟩).preorder.flatMap fun p =>
      s.conventions.flatMap (p.findingsOf s.overrides) := by
  rw [found, answers, List.flatMap_assoc]
  refine List.flatMap_congr fun p _ => ?_
  rw [Place.answersOf, List.flatMap_map]
  refine List.flatMap_congr fun c _ => ?_
  rw [Place.findingsOf]
  cases p.remarks? c <;> rfl

/-- If the rules can be made, an analysis with them fails for want of an answer, or it counts the
places with a kind. It reports what stands before the first missing answer. -/
theorem Settings.analyse_of_create {s : Settings} {rules : List Rule}
    (h : Rule.create (some { overrides := s.overrides }) s.enabled [] = .ok rules) {tree : Value}
    (htree : tree.isMap = true) :
    (analyse rules s.overrides tree).1 =
        (verdict (s.answers tree)).map (fun _ => (Place.top ⟨[], tree⟩).visited) ∧
      (analyse rules s.overrides tree).2.reporter.diagnostics.toList =
        reported (s.answers tree) := by
  have hsome : Rule.create (some { overrides := s.overrides })
      (some (s.enabled.getD Convention.ids)) [] = .ok rules := by
    rw [← h]
    cases s.enabled <;> rfl
  obtain ⟨-, rfl⟩ := (Rule.create_eq_ok_iff ..).1 hsome
  cases tree with
  | map entries =>
      rw [← Place.entries_script]
      exact analyse_map_rule s.conventions _ s.overrides entries
  | _ => cases htree

/-- What linting a mapping gives, by the answers alone. -/
theorem runFrom_lintTree_of_isMap (s : Settings) {tree : Value} (htree : tree.isMap = true)
    (log : Log) :
    ((lintTree s tree).runFrom log).1 =
      match Rule.create (some { overrides := s.overrides }) s.enabled [] with
      | .error e => .error (.rules e)
      | .ok _ =>
        ((verdict (s.answers tree)).mapError TreeError.walk).map fun _ =>
          found (s.answers tree) := by
  rw [runFrom_lintTree]
  cases hcreate : Rule.create (some { overrides := s.overrides }) s.enabled [] with
  | error e => rfl
  | ok rules =>
      obtain ⟨houtcome, hdiagnostics⟩ := Settings.analyse_of_create hcreate htree
      simp only
      rw [houtcome, hdiagnostics]
      cases hverdict : verdict (s.answers tree) with
      | error e => rfl
      | ok =>
          rw [reported_of_ok hverdict]
          rfl

/-- Linting that returns gives all findings. -/
theorem eq_found_of_lintTree {s : Settings} {tree : Value} (htree : tree.isMap = true) {log : Log}
    {ds : List Diagnostic} (h : ((lintTree s tree).runFrom log).1 = .ok ds) :
    ds = found (s.answers tree) := by
  rw [runFrom_lintTree_of_isMap s htree] at h
  split at h
  · cases h
  · cases hverdict : verdict (s.answers tree) with
    | error e =>
        rw [hverdict] at h
        cases h
    | ok =>
        rw [hverdict] at h
        cases h
        rfl

/-- An outcome of which something is known is a result. -/
theorem exists_ok_of_toOption {ε α β : Type} {x : Except ε α} {f : α → β} {b : β}
    (h : x.toOption.map f = some b) : ∃ a, x = .ok a ∧ f a = b := by
  cases x with
  | error e => cases h
  | ok a => exact ⟨a, rfl, Option.some.inj h⟩

/-- Outcomes that are alike: the same error, or results that are related. -/
inductive Alike {ε α β : Type} (R : α → β → Prop) : Except ε α → Except ε β → Prop where
  | error (e : ε) : Alike R (.error e) (.error e)
  | ok {a : α} {b : β} (h : R a b) : Alike R (.ok a) (.ok b)

/-- Linting two mappings has outcomes that are alike, if answers are missing on both sides or on
none, and the findings are related. -/
theorem alike_lintTree (s : Settings) {tree tree' : Value} (htree : tree.isMap = true)
    (htree' : tree'.isMap = true) {R : List Diagnostic → List Diagnostic → Prop}
    (hverdict : verdict (s.answers tree) = verdict (s.answers tree'))
    (hfound : R (found (s.answers tree)) (found (s.answers tree'))) (log log' : Log) :
    Alike R ((lintTree s tree).runFrom log).1 ((lintTree s tree').runFrom log').1 := by
  rw [runFrom_lintTree_of_isMap s htree, runFrom_lintTree_of_isMap s htree', ← hverdict]
  split
  · exact .error _
  · cases verdict (s.answers tree) with
    | error e => exact .error _
    | ok => exact .ok hfound

end UnderscoreLint
