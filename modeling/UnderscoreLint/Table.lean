import UnderscoreLint.Action
import UnderscoreLint.Event
import UnderscoreLint.Node

/-!
# Tables of handlers

A table holds, for each event, the handlers that were registered for it, in the
order of their registration and as often as they were registered. What a handler
does is not the table's affair: it is given by the caller when an event is
dispatched, so a table can hold functions as well as descriptions of them.
-/

namespace UnderscoreLint

/-- Handlers of type `η` by event. An event is listed once it has a handler, and the
list of events has the order of first registration. -/
structure Table (η : Type) where
  slots : List (Event × List η) := []
  deriving Inhabited

namespace Table

variable {η σ ε : Type}

/-- The table without handlers. -/
def empty : Table η := {}

/-- Adds a handler to the slot of an event, or a new slot at the end. -/
def addTo (event : Event) (handler : η) : List (Event × List η) → List (Event × List η)
  | [] => [(event, [handler])]
  | slot :: rest =>
    if slot.1 = event then (event, slot.2 ++ [handler]) :: rest
    else slot :: addTo event handler rest

/-- Registers a handler for an event. -/
def on (t : Table η) (event : Event) (handler : η) : Table η :=
  ⟨addTo event handler t.slots⟩

/-- Registers handlers for events, in order. -/
def onAll (t : Table η) (subscriptions : List (Event × η)) : Table η :=
  subscriptions.foldl (fun t s => t.on s.1 s.2) t

/-- Registers a handler for the event of that name. -/
def subscribe (t : Table η) (name : Text) (handler : η) : Except EventError (Table η) :=
  match Event.parse name with
  | .ok event => .ok (t.on event handler)
  | .error e => .error e

/-- The handlers of an event, in the order of registration. -/
def handlers (t : Table η) (event : Event) : List η :=
  match t.slots.find? fun slot => slot.1 == event with
  | some slot => slot.2
  | none => []

/-- Whether an event has a handler. -/
def wants (t : Table η) (event : Event) : Bool :=
  t.slots.any fun slot => slot.1 == event

/-- The events that have handlers, sorted. -/
def events (t : Table η) : List Event :=
  (t.slots.map (·.1)).mergeSort Event.le

/-- Calls the handlers of a node's event, in order, until one fails. A node without a
kind has no events. -/
def dispatch (t : Table η) (call : η → Node → Action σ ε Unit) (phase : Phase) (n : Node) :
    Action σ ε Unit :=
  match n.kind? with
  | some kind => Action.each (fun h => call h n) (t.handlers ⟨kind, phase⟩)
  | none => pure ()

/-- Registering appends to the handlers of that event and to no other. -/
theorem handlers_on (t : Table η) (event other : Event) (h : η) :
    (t.on event h).handlers other =
      if other = event then t.handlers other ++ [h] else t.handlers other := by
  obtain ⟨slots⟩ := t
  simp only [handlers, on]
  induction slots with
  | nil =>
    by_cases he : other = event
    · simp [addTo, he]
    · simp [addTo, he, Ne.symm he]
  | cons slot rest ih =>
    by_cases hs : slot.1 = event
    · by_cases he : other = event
      · simp [addTo, hs, he]
      · simp [addTo, hs, he, Ne.symm he]
    · by_cases he : slot.1 = other
      · simp [addTo, he, show other ≠ event from he ▸ hs]
      · simpa [addTo, hs, he] using ih

/-- Registering makes the event wanted and leaves every other event as it was. -/
theorem wants_on (t : Table η) (event other : Event) (h : η) :
    (t.on event h).wants other = (decide (other = event) || t.wants other) := by
  obtain ⟨slots⟩ := t
  simp only [wants, on]
  induction slots with
  | nil => by_cases he : other = event <;> simp [addTo, he, Ne.symm]
  | cons slot rest ih =>
    by_cases hs : slot.1 = event
    · by_cases he : other = event <;> simp [addTo, hs, he]
    · simp only [addTo, if_neg hs, List.any_cons, ih]
      rw [Bool.or_left_comm]

end Table

end UnderscoreLint
