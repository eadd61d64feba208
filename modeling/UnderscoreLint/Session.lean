import UnderscoreLint.Analysis

/-!
# Sessions

A session drives a table by hand: handlers are registered, events are dispatched and trees
are walked one command at a time. Beside the handlers of rules a session knows recorders,
which write down that they were called and at which node.
-/

namespace UnderscoreLint

/-- A handler in a session. -/
inductive Listener where
  /-- Writes its label and the kind and name of the node. -/
  | recorder (label : Text)
  /-- Does what a rule wants done. -/
  | rule (h : Handler)

/-- The state of a session: the table, the analysis, and what the recorders wrote. -/
structure Session where
  table : Table Listener := {}
  analysis : Analysis := {}
  record : Array Text := #[]
  /-- The number of registrations so far. -/
  registrations : Nat := 0
  /-- The latest registration that had a library rule in it. -/
  libraryRegistration : Option Nat := none

namespace Session

/-- What handlers act on. -/
abbrev Ground := Analysis × Array Text

/-- What a recorder writes at a node. -/
def recordLine (label : Text) (n : Node) : Text :=
  let kind := n.kind?.getD Scalar.null.shown
  let name := n.name?.getD Scalar.null.shown
  label ++ ":" ++ kind ++ ":" ++ name

/-- What a listener does at a node. -/
def call (l : Listener) (n : Node) : Action Ground WalkError Unit :=
  match l with
  | .recorder label => modify fun g => (g.1, g.2.push (recordLine label n))
  | .rule h => fun g =>
    let (outcome, a) := (h.call n).runFrom g.1
    (outcome, (a, g.2))

/-- Runs an action on the ground of a session. -/
def act {α : Type} (s : Session) (a : Action Ground WalkError α) : Except WalkError α × Session :=
  let (outcome, ground) := a.runFrom (s.analysis, s.record)
  (outcome, { s with analysis := ground.1, record := ground.2 })

/-- Registers a recorder for an event. -/
def on (s : Session) (event : Event) (label : Text) : Session :=
  { s with table := s.table.on event (.recorder label) }

/-- Registers a recorder for the event of that name. -/
def subscribe (s : Session) (name label : Text) : Except EventError Session :=
  (s.table.subscribe name (.recorder label)).map fun table => { s with table }

/-- Makes rules and registers them. Nothing is registered if they cannot be made. -/
def register (s : Session) (wanted : Option (List Text)) : Except RuleError Session := do
  let rules ← Rule.create (some s.analysis.reporter) wanted []
  let serial := s.registrations
  let handlers := rules.flatMap fun r => r.handlers serial
  let hasLibrary := rules.any fun r => r.id == Convention.libraryMembers.id
  return { s with
    table := s.table.onAll (handlers.map fun h => (h.1, .rule h.2))
    registrations := serial + 1
    libraryRegistration := if hasLibrary then some serial else s.libraryRegistration }

/-- Dispatches an event of a node. -/
def dispatch (s : Session) (phase : Phase) (n : Node) : Except WalkError Unit × Session :=
  s.act (s.table.dispatch call phase n)

/-- Walks a tree. -/
def walk (s : Session) (root : Node) : Except WalkError Nat × Session :=
  s.act (s.table.walkTree call root)

/-- The scopes of the latest library rule, once there is one. -/
def libraryScopes? (s : Session) : Option LibraryScopes :=
  s.libraryRegistration.map s.analysis.scopesOf

end Session

end UnderscoreLint
