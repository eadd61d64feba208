/-!
# Actions

What a handler does to the state of an analysis. An action may fail; what it did
before it failed stays done. It is a state transformer that also gives an outcome,
and not the other way round, because a failure must not undo the findings that were
reported before it.
-/

namespace UnderscoreLint

/-- A step on a state `σ` that fails with an `ε` or gives an `α`, and keeps the state
either way. -/
abbrev Action (σ ε α : Type) := ExceptT ε (StateM σ) α

namespace Action

variable {σ ε α : Type}

/-- Runs an action from a state: the outcome, and the state it leaves. -/
def runFrom (a : Action σ ε α) (s : σ) : Except ε α × σ :=
  (ExceptT.run a).run s

/-- Performs actions for the members of a list, in order, until one fails. -/
def each {β : Type} (f : β → Action σ ε Unit) : List β → Action σ ε Unit
  | [] => pure ()
  | b :: rest => do
    f b
    each f rest

@[simp] theorem each_nil {β : Type} (f : β → Action σ ε Unit) : each f [] = pure () := rfl

@[simp] theorem each_cons {β : Type} (f : β → Action σ ε Unit) (b : β) (rest : List β) :
    each f (b :: rest) = (do f b; each f rest) := rfl

/-- Going through two lists one after the other is going through both. -/
theorem each_append {β : Type} (f : β → Action σ ε Unit) (xs ys : List β) :
    each f (xs ++ ys) = (do each f xs; each f ys) := by
  induction xs with
  | nil => simp
  | cons x xs ih => simp [ih]

end Action

end UnderscoreLint
