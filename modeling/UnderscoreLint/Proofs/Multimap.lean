import Mathlib.Data.List.Forall2
import Mathlib.Data.List.Nodup
import UnderscoreLint.Analysis
import UnderscoreLint.Proofs.EventNames
import UnderscoreLint.Proofs.Traversal

/-!
# Tables as ordered multimaps

A table is asked in three ways to hold handlers: for an event, for the event that a name is read as,
and for all the events of rules, which is how an analysis registers them (`Table.serve_register`).
`Table.Request` has one constructor for each, and `Table.serveAll` serves requests one after the
other. A request is refused if its name is that of no event, and then the table stays as it is.
Handlers act on a state of their own, so none is registered while an event is dispatched.

`Table.Holds t entries` is the invariant: `entries` are the handlers in the order of their
registration, and the table has those of an event in its slot and has no other slots. Every way of
adding handlers keeps it (`Holds.on`, `Holds.onAll`, `Holds.serve`), so it holds after all requests,
for the handlers that they brought (`Holds.serveAll`). What can be seen of a table follows from it
(`Table.serveAll_multimap`).
-/

namespace UnderscoreLint

namespace Event

/-- Events in order: by kind, in the order of texts, and the entry before the exit. -/
def Before (a b : Event) : Prop :=
  a.kind < b.kind ∨ a.kind = b.kind ∧ a.phase = .enter ∧ b.phase = .exit

theorem before_mk_iff {kind : Text} {phase phase' : Phase} :
    Before ⟨kind, phase⟩ ⟨kind, phase'⟩ ↔ phase = .enter ∧ phase' = .exit :=
  (or_iff_right (Text.lt_irrefl kind)).trans (and_iff_right rfl)

theorem le_iff {a b : Event} : a.le b = true ↔ a.Before b ∨ a = b := by
  obtain ⟨kind, phase⟩ := a
  obtain ⟨kind', phase'⟩ := b
  by_cases h : kind = kind'
  · subst h
    rw [before_mk_iff, le, if_pos rfl]
    cases phase <;> cases phase' <;> simp
  · simp [le, Before, h]

theorem Before.trans {a b c : Event} (hab : a.Before b) (hbc : b.Before c) : a.Before c := by
  rcases hab with hab | ⟨hab, -, hb⟩
  · rcases hbc with hbc | ⟨hbc, -⟩
    · exact .inl (Text.lt_trans hab hbc)
    · exact .inl (hbc ▸ hab)
  · rcases hbc with hbc | ⟨-, hb', -⟩
    · exact .inl (hab ▸ hbc)
    · rw [hb] at hb'
      cases hb'

theorem before_total {a b : Event} (h : a ≠ b) : a.Before b ∨ b.Before a := by
  obtain ⟨kind, phase⟩ := a
  obtain ⟨kind', phase'⟩ := b
  by_cases hkind : kind = kind'
  · subst hkind
    rw [before_mk_iff, before_mk_iff]
    cases phase <;> cases phase' <;> simp_all
  · exact (Text.lt_or_gt_of_ne hkind).imp .inl .inl

protected theorem le_trans (a b c : Event) (hab : a.le b = true) (hbc : b.le c = true) :
    a.le c = true := by
  rw [le_iff] at hab hbc ⊢
  obtain hab | rfl := hab
  · obtain hbc | rfl := hbc
    · exact .inl (hab.trans hbc)
    · exact .inl hab
  · exact hbc

protected theorem le_total (a b : Event) : (a.le b || b.le a) = true := by
  rw [Bool.or_eq_true, le_iff, le_iff]
  by_cases h : a = b
  · exact .inl (.inr h)
  · exact (before_total h).imp .inl .inl

end Event

namespace Table

open UnderscoreLint.Action

variable {η σ ε : Type}

/-- The events that a table has slots for. -/
def keys (t : Table η) : List Event :=
  t.slots.map fun slot => slot.1

theorem mem_keys {t : Table η} {event : Event} : event ∈ t.keys ↔ t.wants event = true := by
  simp [keys, wants]

theorem mem_events {t : Table η} {event : Event} : event ∈ t.events ↔ t.wants event = true := by
  rw [← mem_keys]
  exact List.mem_mergeSort

theorem mem_keys_on {t : Table η} {event other : Event} {handler : η} :
    other ∈ (t.on event handler).keys ↔ other = event ∨ other ∈ t.keys := by
  rw [mem_keys, wants_on, Bool.or_eq_true, decide_eq_true_iff, mem_keys]

theorem nodup_keys_on {t : Table η} (h : t.keys.Nodup) (event : Event) (handler : η) :
    (t.on event handler).keys.Nodup := by
  obtain ⟨slots⟩ := t
  induction slots with
  | nil => exact List.nodup_singleton event
  | cons slot rest ih =>
      -- The event has this slot, or it comes behind it and so cannot bring its key a second time.
      by_cases hevent : slot.1 = event
      · have hkeys : (on ⟨slot :: rest⟩ event handler).keys = keys ⟨slot :: rest⟩ := by
          simp [keys, on, addTo, hevent]
        rw [hkeys]
        exact h
      · obtain ⟨hslot, hrest⟩ := List.nodup_cons.1 h
        have hkeys : (on ⟨slot :: rest⟩ event handler).keys =
            slot.1 :: (on ⟨rest⟩ event handler).keys := by
          simp [keys, on, addTo, hevent]
        rw [hkeys, List.nodup_cons, mem_keys_on, not_or]
        exact ⟨⟨hevent, hslot⟩, ih hrest⟩

theorem pairwise_events {t : Table η} (h : t.keys.Nodup) : t.events.Pairwise Event.Before := by
  have hsorted : t.events.Pairwise fun a b => a.le b = true :=
    List.pairwise_mergeSort Event.le_trans Event.le_total t.keys
  have hnodup : t.events.Nodup := (List.mergeSort_perm t.keys Event.le).nodup_iff.2 h
  exact (hsorted.and hnodup).imp fun ⟨hle, hne⟩ => (Event.le_iff.1 hle).resolve_right hne

/-- A request to hold handlers: for an event, for the event of a name, or for the events of rules
under a registration number. -/
inductive Request (η : Type) where
  | on (event : Event) (handler : η)
  | subscribe (name : Text) (handler : η)
  | register (serial : Nat) (rules : List Rule)

/-- Serves a request and tells whether it was refused. A table can have other handlers beside those
of rules, so `hold` says how these are held. -/
def serve (hold : Handler → η) (t : Table η) : Request η → Except EventError Unit × Table η
  | .on event handler => (.ok (), t.on event handler)
  | .subscribe name handler =>
    match t.subscribe name handler with
    | .ok t' => (.ok (), t')
    | .error e => (.error e, t)
  | .register serial rules =>
    (.ok (), t.onAll ((rules.flatMap fun r => r.handlers serial).map fun e => (e.1, hold e.2)))

/-- Serves requests one after the other. One that is refused does not keep the next from being
served. -/
def serveAll (hold : Handler → η) (t : Table η) (requests : List (Request η)) : Table η :=
  requests.foldl (fun t request => (t.serve hold request).2) t

theorem serve_register (t : Table Handler) (serial : Nat) (rules : List Rule) :
    t.serve id (.register serial rules) = (.ok (), t.register serial rules) := by
  simp [serve, register]

/-- A handler is added to the event whose name is given. If there is none the request is refused,
and the table stays as it is. -/
theorem serve_subscribe (hold : Handler → η) (t : Table η) (name : Text) (handler : η) :
    (∃ event, Event.IsPlain event.kind ∧ event.name = name ∧
      t.serve hold (.subscribe name handler) = (.ok (), t.on event handler)) ∨
    ∃ e, ¬ Event.IsName name ∧ t.serve hold (.subscribe name handler) = (.error e, t) := by
  cases hname : Event.parse name with
  | ok event =>
      obtain ⟨hkind, htext⟩ := Event.parse_eq_ok_iff.1 hname
      exact .inl ⟨event, hkind, htext, by simp only [serve, subscribe, hname]⟩
  | error e =>
      have hnone := Event.not_isName_iff.2 ⟨e, hname⟩
      exact .inr ⟨e, hnone, by simp only [serve, subscribe, hname]⟩

/-- The handlers that a request brings, each with its event, in order. -/
inductive Request.Brings (hold : Handler → η) : Request η → List (Event × η) → Prop where
  | on (event : Event) (handler : η) : Brings hold (.on event handler) [(event, handler)]
  | subscribe {event : Event} (hkind : Event.IsPlain event.kind) (handler : η) :
      Brings hold (.subscribe event.name handler) [(event, handler)]
  | refused {name : Text} (hname : ¬ Event.IsName name) (handler : η) :
      Brings hold (.subscribe name handler) []
  | register (serial : Nat) (rules : List Rule) :
      Brings hold (.register serial rules)
        (rules.flatMap fun r => r.subscriptions.map fun s => (s.1, hold ⟨r.id, serial, s.2⟩))

/-- The table holds the handlers that were registered with their events in this order, and it has no
slot without a handler and none twice. -/
structure Holds (t : Table η) (entries : List (Event × η)) : Prop where
  handlers : ∀ event, t.handlers event = (entries.filter fun e => e.1 = event).map fun e => e.2
  wants : ∀ event, t.wants event = true ↔ t.handlers event ≠ []
  nodup : t.keys.Nodup

theorem holds_empty : (empty : Table η).Holds [] where
  handlers _ := rfl
  wants event := by simp [Table.wants, Table.handlers, empty]
  nodup := List.nodup_nil

namespace Holds

variable {t : Table η} {entries : List (Event × η)}

theorem on (h : t.Holds entries) (event : Event) (handler : η) :
    (t.on event handler).Holds (entries ++ [(event, handler)]) where
  handlers other := by
    rw [handlers_on, h.handlers, List.filter_append, List.map_append]
    by_cases hother : other = event
    · simp [hother]
    · simp [hother, Ne.symm hother]
  wants other := by
    rw [handlers_on, wants_on, Bool.or_eq_true, decide_eq_true_iff, h.wants]
    by_cases hother : other = event
    · simp [hother]
    · simp [hother]
  nodup := nodup_keys_on h.nodup event handler

theorem onAll (h : t.Holds entries) (more : List (Event × η)) :
    (t.onAll more).Holds (entries ++ more) := by
  induction more generalizing t entries with
  | nil => simpa [Table.onAll] using h
  | cons e more ih =>
      have hrest := ih (h.on e.1 e.2)
      rw [List.append_assoc] at hrest
      exact hrest

/-- A request adds the handlers that it brings. -/
theorem serve (h : t.Holds entries) (hold : Handler → η) (request : Request η) :
    ∃ brought, request.Brings hold brought ∧
      (t.serve hold request).2.Holds (entries ++ brought) := by
  cases request with
  | on event handler => exact ⟨_, .on event handler, h.on event handler⟩
  | subscribe name handler =>
      obtain ⟨event, hkind, rfl, hserved⟩ | ⟨e, hname, hserved⟩ :=
        serve_subscribe hold t name handler
      · rw [hserved]
        exact ⟨_, .subscribe hkind handler, h.on event handler⟩
      · rw [hserved]
        exact ⟨[], .refused hname handler, by rwa [List.append_nil]⟩
  | register serial rules =>
      have hrules :
          ((rules.flatMap fun r => r.handlers serial).map fun e => (e.1, hold e.2)) =
            rules.flatMap fun r =>
              r.subscriptions.map fun s => (s.1, hold ⟨r.id, serial, s.2⟩) := by
        simp only [List.map_flatMap, Rule.handlers, List.map_map, Function.comp_def]
      refine ⟨_, .register serial rules, ?_⟩
      rw [← hrules]
      exact h.onAll _

theorem serveAll (h : t.Holds entries) (hold : Handler → η) (requests : List (Request η)) :
    ∃ brought, List.Forall₂ (Request.Brings hold) requests brought ∧
      (t.serveAll hold requests).Holds (entries ++ brought.flatten) := by
  -- Later requests find what earlier ones brought, so the induction is over all tables.
  induction requests generalizing t entries with
  | nil => exact ⟨[], .nil, by simpa [Table.serveAll] using h⟩
  | cons request requests ih =>
      obtain ⟨first, hfirst, hserved⟩ := h.serve hold request
      obtain ⟨others, hothers, hall⟩ := ih hserved
      refine ⟨first :: others, .cons hfirst hothers, ?_⟩
      rw [List.flatten_cons, ← List.append_assoc]
      exact hall

end Holds

/-- Dispatching an event of a node makes these calls in their order, up to the first one that fails.
Which calls are made can be seen where each of them is written down. -/
def Makes (t : Table η) (call : η → Node → Action σ ε Unit) (phase : Phase) (n : Node)
    (calls : List (η × Node)) : Prop :=
  t.dispatch call phase n = each (Function.uncurry call) calls ∧
  ∀ s, match (t.dispatch call phase n).runFrom s with
    | (.ok (), s') => (t.dispatch (logged call) phase n).runFrom (s, []) = (.ok (), (s', calls))
    | (.error e, s') =>
      ∃ before c after mid, calls = before ++ c :: after ∧
        (each (Function.uncurry call) before).runFrom s = (.ok (), mid) ∧
        (Function.uncurry call c).runFrom mid = (.error e, s') ∧
        (t.dispatch (logged call) phase n).runFrom (s, []) = (.error e, (s', before ++ [c]))

theorem makes_handlersAt (t : Table η) (call : η → Node → Action σ ε Unit) (phase : Phase)
    (n : Node) : t.Makes call phase n ((t.handlersAt phase n).map fun h => (h, n)) := by
  have hlogged : t.dispatch (logged call) phase n =
      each (recorded (Function.uncurry call)) ((t.handlersAt phase n).map fun h => (h, n)) :=
    t.dispatch_eq_each (logged call) phase n
  refine ⟨t.dispatch_eq_each call phase n, fun s => ?_⟩
  rw [hlogged, dispatch_eq_each]
  generalize (t.handlersAt phase n).map (fun h => (h, n)) = calls
  rcases hrun : (each (Function.uncurry call) calls).runFrom s with ⟨e | ⟨⟩, s'⟩
  · exact exists_of_each_recorded_error [] hrun
  · exact runFrom_each_recorded_of_ok [] hrun

/-- Whatever a table was asked to hold, the handlers of an event are those that the requests brought
for it, in order and with repetitions. An event is wanted exactly if it has handlers, and the wanted
events are listed in order, each once. A name that is no event's is refused, and changes nothing.
Dispatching an event of a node calls the handlers of that event in their order, each as often as it
was brought, up to the first call that fails; a node without a kind has no handlers called. -/
theorem serveAll_multimap (hold : Handler → η) (requests : List (Request η))
    (call : η → Node → Action σ ε Unit) :
    let t := (empty : Table η).serveAll hold requests
    (∃ brought, List.Forall₂ (Request.Brings hold) requests brought ∧
      ∀ event, t.handlers event =
        (brought.flatten.filter fun e => e.1 = event).map fun e => e.2) ∧
    (∀ event, t.wants event = true ↔ t.handlers event ≠ []) ∧
    t.events.Pairwise Event.Before ∧
    (∀ event, event ∈ t.events ↔ t.wants event = true) ∧
    (∀ name handler,
      (∃ event, Event.IsPlain event.kind ∧ event.name = name ∧
        t.serve hold (.subscribe name handler) = (.ok (), t.on event handler)) ∨
      ∃ e, ¬ Event.IsName name ∧ t.serve hold (.subscribe name handler) = (.error e, t)) ∧
    ∀ phase n, t.Makes call phase n
      (match n.kind? with
      | some kind => (t.handlers ⟨kind, phase⟩).map fun h => (h, n)
      | none => []) := by
  intro t
  obtain ⟨brought, hbrought, h⟩ := (holds_empty (η := η)).serveAll hold requests
  refine ⟨⟨brought, hbrought, h.handlers⟩, h.wants, pairwise_events h.nodup, fun _ => mem_events,
    serve_subscribe hold t, fun phase n => ?_⟩
  have hmakes := t.makes_handlersAt call phase n
  unfold handlersAt at hmakes
  cases hkind : n.kind? with
  | none => rwa [hkind] at hmakes
  | some kind => rwa [hkind] at hmakes

end Table

end UnderscoreLint
