import UnderscoreLint.Text.Quoted

/-!
# Events

An event is a node kind and a phase: the walk fires it on entering a node of that
kind or on leaving it. An event has a name, which is the kind alone for an entry and
the kind with `:exit` behind it for an exit. `Event.parse` reads a name by cutting it
at its first colon, so a kind that is empty or has a colon in it cannot be named.
-/

namespace UnderscoreLint

/-- Whether an event fires when a node is entered or left. -/
inductive Phase where
  | enter
  | exit
  deriving DecidableEq, Repr, Inhabited

/-- A node kind and a phase. -/
structure Event where
  kind : Text
  phase : Phase := .enter
  deriving DecidableEq, Repr, Inhabited

/-- Why a text names no event. -/
inductive EventError where
  /-- Nothing stands before the first colon, or there is nothing at all. -/
  | missingKind (name : Text)
  /-- Something other than `exit` stands behind the first colon. -/
  | unknownSuffix (name : Text)
  deriving DecidableEq, Repr

/-- The words of an event error. -/
def EventError.message : EventError → String
  | .missingKind name => s!"Invalid event name {Text.quoted name}: missing node kind"
  | .unknownSuffix name =>
    s!"Invalid event name {Text.quoted name}: only the ':exit' suffix is supported"

namespace Event

/-- The name of an event. -/
def name (e : Event) : Text :=
  match e.phase with
  | .enter => e.kind
  | .exit => e.kind ++ ":exit"

/-- Reads the name of an event. -/
def parse (text : Text) : Except EventError Event :=
  let kind := text.letters.takeWhile (· ≠ .char ':')
  if kind = [] then .error (.missingKind text)
  else
    match text.letters.dropWhile (· ≠ .char ':') with
    | [] => .ok ⟨⟨kind⟩, .enter⟩
    | _ :: suffix =>
      if Text.mk suffix = "exit" then .ok ⟨⟨kind⟩, .exit⟩
      else .error (.unknownSuffix text)

/-- Events are listed by kind, in the order of texts, the entry before the exit. -/
def le (a b : Event) : Bool :=
  if a.kind = b.kind then a.phase == .enter || b.phase == .exit
  else decide (a.kind < b.kind)

end Event

end UnderscoreLint
