import UnderscoreLint.Table

/-!
# Walking a tree

A walk enters a node, goes through the mappings directly below it in document order,
and leaves the node. On entering and on leaving, the handlers of the node's event are
called; the first one that fails ends the walk. A node counts as visited if it has a
kind.

`walk` keeps the tasks ahead on an explicit stack, since syntax trees nest deeply:
entering a node puts the entries of its children on the stack, above its own leaving.
Events without handlers are not dispatched on leaving. `visit` says the same by plain
recursion on the tree, and is the form to reason about.

Both recursions end because the children of a node are parts of its value and no part
is a child twice (`total_size_children_lt`).
-/

namespace UnderscoreLint

/-- The sum of a measure over a list. -/
def total {α : Type} (f : α → Nat) : List α → Nat
  | [] => 0
  | a :: as => f a + total f as

@[simp] theorem total_nil {α : Type} (f : α → Nat) : total f [] = 0 :=
  rfl

@[simp] theorem total_cons {α : Type} (f : α → Nat) (a : α) (as : List α) :
    total f (a :: as) = f a + total f as :=
  rfl

@[simp] theorem total_append {α : Type} (f : α → Nat) (as bs : List α) :
    total f (as ++ bs) = total f as + total f bs := by
  induction as with
  | nil => simp
  | cons a as ih =>
    simp only [List.cons_append, total_cons, ih]
    omega

/-- The size of the value of a node, as a measure for recursion. -/
noncomputable def Node.size (n : Node) : Nat :=
  sizeOf n.value

theorem Node.size_pos (n : Node) : 0 < n.size := by
  unfold Node.size
  cases n.value with
  | scalar s => rw [Value.scalar.sizeOf_spec]; omega
  | list items => rw [Value.list.sizeOf_spec]; omega
  | map entries => rw [Value.map.sizeOf_spec]; omega
  | record entries => rw [Value.record.sizeOf_spec]; omega

private theorem total_size_number_le (address : Address) (i : Nat) (vs : List Value) :
    total Node.size ((Node.number address i vs).filter (·.value.isMap)) ≤ sizeOf vs := by
  induction vs generalizing i with
  | nil => simp [Node.number]
  | cons v rest ih =>
    have := ih (i + 1)
    simp only [Node.number, List.filter_cons, List.cons.sizeOf_spec]
    split
    · simp only [total_cons, Node.size] at this ⊢
      omega
    · omega

private theorem total_size_childrenAt_le (address : Address) (e : Text × Value) :
    total Node.size (Node.childrenAt address e) ≤ sizeOf e.2 := by
  unfold Node.childrenAt
  split
  · simp
  · split
    · simp_all [Node.size]
    · rename_i vs h
      have := total_size_number_le (address ++ [.key e.1]) 0 vs
      rw [h, Value.list.sizeOf_spec]
      omega
    · simp

/-- The children of a node are together smaller than the node. -/
theorem total_size_children_lt (n : Node) : total Node.size n.children < n.size := by
  obtain ⟨address, v⟩ := n
  cases v with
  | map entries =>
    have h : total Node.size (entries.flatMap (Node.childrenAt address)) ≤ sizeOf entries := by
      induction entries with
      | nil => simp
      | cons e rest ih =>
        have := total_size_childrenAt_le address e
        obtain ⟨name, v⟩ := e
        simp only [List.flatMap_cons, total_append, List.cons.sizeOf_spec,
          Prod.mk.sizeOf_spec] at this ⊢
        omega
    simp only [Node.children, Node.size, Value.map.sizeOf_spec] at h ⊢
    omega
  | _ => exact Node.size_pos _

/-- What a walk has ahead of it. -/
inductive Task where
  | enter (n : Node)
  | leave (n : Node)

/-- The measure of a task: two for each unit of a node still to be entered. -/
noncomputable def Task.weight : Task → Nat
  | .enter n => 2 * n.size
  | .leave _ => 1

private theorem total_weight_enter (ns : List Node) :
    total Task.weight (ns.map Task.enter) = 2 * total Node.size ns := by
  induction ns with
  | nil => rfl
  | cons n ns ih =>
    simp only [List.map_cons, total_cons, ih, Task.weight]
    omega

/-- One if a node counts as visited, and zero otherwise. -/
def Node.visits (n : Node) : Nat :=
  if n.kind?.isSome then 1 else 0

namespace Table

variable {η σ ε : Type} (t : Table η) (call : η → Node → Action σ ε Unit)

/-- Fires the exit event of a node if anyone wants it. -/
def leave (n : Node) : Action σ ε Unit :=
  match n.kind? with
  | some kind => if t.wants ⟨kind, .exit⟩ then t.dispatch call .exit n else pure ()
  | none => pure ()

/-- Works the stack off and adds the visits to `visited`. -/
def work (stack : List Task) (visited : Nat) : Action σ ε Nat :=
  match stack with
  | [] => pure visited
  | .leave n :: rest => do
    leave t call n
    work rest visited
  | .enter n :: rest => do
    t.dispatch call .enter n
    work (n.children.map .enter ++ .leave n :: rest) (visited + n.visits)
termination_by total Task.weight stack
decreasing_by
  · simp [Task.weight]
  · have := total_size_children_lt n
    simp only [total_append, total_cons, total_weight_enter, Task.weight]
    omega

/-- Walks the tree below a node and gives the number of visited nodes. -/
def walk (root : Node) : Action σ ε Nat :=
  work t call [.enter root] 0

mutual

/-- Walks the tree below a node by recursion. -/
def visit (n : Node) : Action σ ε Nat := do
  t.dispatch call .enter n
  let below ← visitAll n.children
  t.dispatch call .exit n
  pure (n.visits + below)
termination_by 2 * n.size
decreasing_by
  have := total_size_children_lt n
  omega

/-- Walks the trees below the nodes, one after the other. -/
def visitAll (ns : List Node) : Action σ ε Nat :=
  match ns with
  | [] => pure 0
  | n :: rest => do
    let first ← visit n
    let others ← visitAll rest
    pure (first + others)
termination_by 2 * total Node.size ns + 1
decreasing_by
  · simp only [total_cons]
    omega
  · have := n.size_pos
    simp only [total_cons]
    omega

end

end Table

end UnderscoreLint
