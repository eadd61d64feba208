import UnderscoreLint.Analysis
import UnderscoreLint.Config
import UnderscoreLint.Log

/-!
# Linting one tree

`analyse` runs the enabled rules over one tree. The rules are made afresh for each tree, so
nothing is carried over from one tree to the next. `lintTree` does the same and writes to
the log.
-/

namespace UnderscoreLint

/-- Why linting a tree fails: the rules cannot be made, or the walk fails. -/
inductive TreeError where
  | rules (e : RuleError)
  | walk (e : WalkError)

/-- The outcome of walking a tree with rules registered once, and the state it leaves. -/
def analyse (rules : List Rule) (overrides : List (Text × Text)) (tree : Value) :
    Except WalkError Nat × Analysis :=
  let table : Table Handler := Table.empty.register 0 rules
  (table.walkTree Handler.call ⟨[], tree⟩).runFrom { reporter := { overrides } }

/-- The part of the program that registers rules, as the log calls it. -/
def registrySource : String := "solnaming.naming.dispatch"

/-- The part of the program that runs them, as the log calls it. -/
def linterSource : String := "solnaming.linter"

/-- Lints one tree and gives its diagnostics in the order of their report. -/
def lintTree (s : Settings) (tree : Value) : Logged TreeError (List Diagnostic) :=
  match Rule.create (some { overrides := s.overrides }) s.enabled [] with
  | .error e => throw (.rules e)
  | .ok rules => do
    Action.each (fun r => logLine .debug registrySource ("Registered rule " ++ r.id)) rules
    match analyse rules s.overrides tree with
    | (.error e, _) => throw (.walk e)
    | (.ok visited, a) => do
      let nodes := Decimal.natText visited
      let found := Decimal.natText a.reporter.diagnostics.size
      logLine .debug linterSource s!"Visited {nodes} nodes, {found} diagnostics"
      return a.reporter.diagnostics.toList

end UnderscoreLint
