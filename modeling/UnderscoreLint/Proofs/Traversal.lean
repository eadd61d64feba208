import UnderscoreLint.Proofs.Runs
import UnderscoreLint.Walk

/-!
# The order of a walk

`Node.script n` lists the events of the tree below `n` in the order of the plain recursion:
the entry of `n`, the scripts of its children from left to right, the exit of `n`. Both the
recursion `Table.visit` and the loop `Table.walk` fire exactly these events and count the
entries of nodes that have a kind. For the loop the invariant is `owed`: at every turn the
stack stands for the events that are still to be fired.

`Table.turns` runs the loop for a given number of turns. A turn takes one task off the stack
and fires one event, so the loop ends after as many turns as the script has events.
-/

namespace UnderscoreLint

theorem le_total_of_mem {α : Type} (f : α → Nat) {a : α} {as : List α} (h : a ∈ as) :
    f a ≤ total f as := by
  induction as with
  | nil => cases h
  | cons b as ih =>
      rw [total_cons]
      rcases List.mem_cons.1 h with rfl | h
      · exact Nat.le_add_right _ _
      · exact Nat.le_trans (ih h) (Nat.le_add_left _ _)

namespace Node

theorem size_lt_of_mem_children {c n : Node} (h : c ∈ n.children) : c.size < n.size :=
  Nat.lt_of_le_of_lt (le_total_of_mem Node.size h) (total_size_children_lt n)

/-- Induction over trees: a property passes from the children of a node to the node. -/
@[elab_as_elim] theorem children_induction {motive : Node → Prop}
    (step : ∀ n, (∀ c ∈ n.children, motive c) → motive n) (n : Node) : motive n :=
  step n fun c _ => children_induction step c
termination_by n.size
decreasing_by exact size_lt_of_mem_children ‹_›

/-- The events of the tree below a node, in the order of the plain recursion. -/
def script (n : Node) : List (Phase × Node) :=
  [(.enter, n)] ++ (n.children.attach.flatMap fun c => c.1.script) ++ [(.exit, n)]
termination_by n.size
decreasing_by exact size_lt_of_mem_children c.2

theorem script_eq (n : Node) :
    n.script = [(.enter, n)] ++ n.children.flatMap script ++ [(.exit, n)] := by
  rw [script, List.flatMap_subtype (g := script) fun _ _ => rfl, List.unattach_attach]

/-- The number of entries among events that are those of nodes with a kind. -/
def entries (events : List (Phase × Node)) : Nat :=
  events.countP fun o => o.1 == .enter && o.2.kind?.isSome

theorem entries_append (events others : List (Phase × Node)) :
    entries (events ++ others) = entries events + entries others :=
  List.countP_append

theorem entries_enter (n : Node) : entries [(.enter, n)] = n.visits := by
  simp [entries, visits]

theorem entries_exit (n : Node) : entries [(.exit, n)] = 0 := by
  simp [entries]

end Node

namespace Table

open UnderscoreLint.Action

variable {η σ ε : Type} (t : Table η) (call : η → Node → Action σ ε Unit)

/-- The handlers called at an event of a node. -/
def handlersAt (phase : Phase) (n : Node) : List η :=
  match n.kind? with
  | some kind => t.handlers ⟨kind, phase⟩
  | none => []

/-- The calls a walk below a node makes if none of them fails, in order. -/
def calls (n : Node) : List (η × Node) :=
  n.script.flatMap fun o => (t.handlersAt o.1 o.2).map fun h => (h, o.2)

/-- Fires events one after the other. -/
def fire (events : List (Phase × Node)) : Action σ ε Unit :=
  each (fun o => t.dispatch call o.1 o.2) events

theorem dispatch_eq_each (phase : Phase) (n : Node) :
    t.dispatch call phase n =
      each (Function.uncurry call) ((t.handlersAt phase n).map fun h => (h, n)) := by
  unfold dispatch handlersAt
  cases n.kind? with
  | none => rfl
  | some kind =>
      simp only
      induction t.handlers ⟨kind, phase⟩ with
      | nil => rfl
      | cons h hs ih => rw [List.map_cons, each_cons, each_cons, ih]; rfl

theorem fire_script (n : Node) :
    t.fire call n.script = each (Function.uncurry call) (t.calls n) := by
  unfold fire calls
  rw [each_flatMap]
  congr 1
  funext o
  exact t.dispatch_eq_each call o.1 o.2

theorem fire_append (events others : List (Phase × Node)) :
    t.fire call (events ++ others) = (do t.fire call events; t.fire call others) :=
  each_append _ _ _

theorem fire_singleton (phase : Phase) (n : Node) :
    t.fire call [(phase, n)] = t.dispatch call phase n :=
  each_singleton _ _

theorem handlers_eq_nil_of_not_wants {event : Event} (h : t.wants event = false) :
    t.handlers event = [] := by
  have hnone : (t.slots.find? fun slot => slot.1 == event) = none := by
    rw [List.find?_eq_none]
    simpa [wants] using h
  simp [handlers, hnone]

/-- Asking whether an exit is wanted before firing it changes nothing. -/
theorem leave_eq_dispatch (n : Node) : t.leave call n = t.dispatch call .exit n := by
  unfold leave dispatch
  cases n.kind? with
  | none => rfl
  | some kind =>
      simp only
      cases hw : t.wants ⟨kind, .exit⟩ with
      | true => rfl
      | false => rw [handlers_eq_nil_of_not_wants t hw]; rfl

/-- The recursion goes through a list of trees by firing their scripts, if it fires the script
of each of them. -/
theorem visitAll_eq_fire {ns : List Node}
    (h : ∀ n ∈ ns, t.visit call n = (do t.fire call n.script; pure (Node.entries n.script))) :
    t.visitAll call ns = (do
      t.fire call (ns.flatMap Node.script)
      pure (Node.entries (ns.flatMap Node.script))) := by
  induction ns with
  | nil =>
      rw [visitAll]
      rfl
  | cons n ns ih =>
      have hn := h n List.mem_cons_self
      have hns := ih fun m hm => h m (List.mem_cons_of_mem n hm)
      rw [visitAll, hn, hns, List.flatMap_cons, Node.entries_append, fire_append]
      simp only [bind_assoc, pure_bind]

/-- The recursion fires the script and counts the entries. -/
theorem visit_eq_fire (n : Node) :
    t.visit call n = (do t.fire call n.script; pure (Node.entries n.script)) := by
  induction n using Node.children_induction with
  | step n ih =>
      rw [visit, visitAll_eq_fire t call ih, Node.script_eq, Node.entries_append,
        Node.entries_append, Node.entries_enter, Node.entries_exit, fire_append, fire_append,
        fire_singleton, fire_singleton]
      simp only [bind_assoc, pure_bind, Nat.add_zero]

/-- The events a stack stands for. -/
def owed : List Task → List (Phase × Node)
  | [] => []
  | .enter n :: rest => n.script ++ owed rest
  | .leave n :: rest => [(.exit, n)] ++ owed rest

theorem owed_map_enter_append (ns : List Node) (stack : List Task) :
    owed (ns.map .enter ++ stack) = ns.flatMap Node.script ++ owed stack := by
  induction ns with
  | nil => rfl
  | cons n ns ih =>
      rw [List.map_cons, List.cons_append, owed, ih, List.flatMap_cons, List.append_assoc]

/-- Entering a node puts on the stack what is left of its script. -/
theorem owed_enter (n : Node) (rest : List Task) :
    owed (.enter n :: rest) =
      [(.enter, n)] ++ owed (n.children.map .enter ++ .leave n :: rest) := by
  rw [owed, owed_map_enter_append, owed, Node.script_eq]
  simp only [List.append_assoc]

/-- The loop fires what the stack stands for and counts the entries in it. -/
theorem work_eq_fire (stack : List Task) (visited : Nat) :
    t.work call stack visited =
      (do t.fire call (owed stack); pure (visited + Node.entries (owed stack))) := by
  induction stack, visited using work.induct with
  | case1 visited =>
      rw [work]
      rfl
  | case2 visited n rest ih =>
      rw [work, ih, owed, Node.entries_append, Node.entries_exit, Nat.zero_add, fire_append,
        fire_singleton, leave_eq_dispatch]
      simp only [bind_assoc]
  | case3 visited n rest ih =>
      rw [work, ih, owed_enter, Node.entries_append, Node.entries_enter, fire_append,
        fire_singleton, Nat.add_assoc]
      simp only [bind_assoc]

theorem walk_eq_fire (root : Node) :
    t.walk call root = (do t.fire call root.script; pure (Node.entries root.script)) := by
  rw [walk, work_eq_fire, owed, owed, List.append_nil, Nat.zero_add]

theorem runFrom_walk (root : Node) (s : σ) :
    (t.walk call root).runFrom s =
      (((t.fire call root.script).runFrom s).1.map fun _ => Node.entries root.script,
        ((t.fire call root.script).runFrom s).2) := by
  rw [walk_eq_fire]
  rcases h : (t.fire call root.script).runFrom s with ⟨e | ⟨⟩, s'⟩
  · exact runFrom_bind_of_error _ h
  · exact runFrom_bind_of_ok _ h

/-- One turn of the loop. An empty stack stays as it is. -/
def turn : List Task × Nat → Action σ ε (List Task × Nat)
  | ([], visited) => pure ([], visited)
  | (.leave n :: rest, visited) => do
    t.leave call n
    pure (rest, visited)
  | (.enter n :: rest, visited) => do
    t.dispatch call .enter n
    pure (n.children.map .enter ++ .leave n :: rest, visited + n.visits)

/-- The loop, stopped after a number of turns. -/
def turns : Nat → List Task × Nat → Action σ ε (List Task × Nat)
  | 0, s => pure s
  | k + 1, s => do
    let s' ← t.turn call s
    turns k s'

/-- The loop empties its stack in as many turns as the stack stands for events. -/
theorem turns_owed (stack : List Task) (visited : Nat) :
    t.turns call (owed stack).length (stack, visited) =
      (do let count ← t.work call stack visited; pure ([], count)) := by
  induction stack, visited using work.induct with
  | case1 visited =>
      rw [work]
      rfl
  | case2 visited n rest ih =>
      rw [work, owed, List.singleton_append, List.length_cons, turns, turn]
      simp only [bind_assoc, pure_bind, ih]
  | case3 visited n rest ih =>
      rw [work, owed_enter, List.singleton_append, List.length_cons, turns, turn]
      simp only [bind_assoc, pure_bind, ih]

/-- The handlers of a table, each of whose calls is written down. -/
def logged (h : η) (n : Node) : Action (σ × List (η × Node)) ε Unit :=
  recorded (Function.uncurry call) (h, n)

theorem walk_logged (root : Node) :
    t.walk (logged call) root = (do
      each (recorded (Function.uncurry call)) (t.calls root)
      pure (Node.entries root.script)) := by
  rw [walk_eq_fire, fire_script]
  rfl

/-- The loop and the recursion are the same action, so they agree on the state they leave, on
the first failure and on the count, which is the number of entries that are fired. They make the
same calls: all calls of the script if none fails, and otherwise those up to the first that fails
and none after it. Asking for the handlers of an exit before firing it cannot be observed, and
the loop is over after one turn for each event. -/
theorem walk_eq_visit (root : Node) :
    t.walk call root = t.visit call root ∧
      t.walk (logged call) root = t.visit (logged call) root ∧
      t.walk call root =
        (do t.fire call root.script; pure (Node.entries root.script)) ∧
      (∀ n, t.leave call n = t.dispatch call .exit n) ∧
      t.turns call root.script.length ([.enter root], 0) =
        (do let count ← t.walk call root; pure ([], count)) ∧
      ∀ s, match (t.walk call root).runFrom s with
        | (.ok count, s') =>
          (t.walk (logged call) root).runFrom (s, []) = (.ok count, (s', t.calls root))
        | (.error e, s') =>
          ∃ before h n after a, t.calls root = before ++ (h, n) :: after ∧
            (each (Function.uncurry call) before).runFrom s = (.ok (), a) ∧
            (call h n).runFrom a = (.error e, s') ∧
            (t.walk (logged call) root).runFrom (s, []) =
              (.error e, (s', before ++ [(h, n)])) := by
  refine ⟨?_, ?_, t.walk_eq_fire call root, t.leave_eq_dispatch call, ?_, ?_⟩
  · rw [walk_eq_fire, visit_eq_fire]
  · rw [walk_eq_fire, visit_eq_fire]
  · have h := t.turns_owed call [.enter root] 0
    rwa [owed, owed, List.append_nil] at h
  · intro s
    rw [walk_logged, walk_eq_fire, fire_script]
    rcases h : (each (Function.uncurry call) (t.calls root)).runFrom s with ⟨e | ⟨⟩, s'⟩
    · rw [runFrom_bind_of_error _ h]
      obtain ⟨before, ⟨h, n⟩, after, a, hcalls, hbefore, hcall, hlog⟩ :=
        exists_of_each_recorded_error [] h
      refine ⟨before, h, n, after, a, hcalls, hbefore, hcall, ?_⟩
      exact runFrom_bind_of_error _ hlog
    · rw [runFrom_bind_of_ok _ h]
      exact runFrom_bind_of_ok _ (runFrom_each_recorded_of_ok [] h)

end Table

end UnderscoreLint
