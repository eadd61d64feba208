import Mathlib.Data.List.Induction
import UnderscoreLint.Scope

/-!
# What a scope accepts

A scope is a stack machine with error recovery: an exit that does not close the innermost open node
is refused, and the moves go on. `WellNested` is the language that belongs to it, of bracketed words
`w ::= nothing | enter n, w, exit n, w` whose brackets are matched by the node, that is, by its
address. Nodes with equal values at different addresses are different brackets, and one node may be
opened several times.

`LeavesOpen ms os` says which entries of a word are not closed in it, without running a scope: the
word is a row of these entries with well-nested words between them. The moves that a scope does not
refuse always form such a word (`Scope.exists_leavesOpen`), and the open nodes of the word are what
the scope holds (`LeavesOpen.run_eq`). Everything else about runs from a fresh scope follows.
-/

namespace UnderscoreLint

/-- Moves in which every entered node is left again, the last entered first, and no other node is
left. -/
inductive WellNested : List Move → Prop where
  | nil : WellNested []
  | node {n m : Node} (same : n.address = m.address) (qualifies : Bool) {inner rest : List Move}
      (hinner : WellNested inner) (hrest : WellNested rest) :
      WellNested (.enter n qualifies :: inner ++ .exit m :: rest)

/-- The nodes that are entered in a word and not left in it, the last entered first, each with
whether it qualifies. A reset closes all that was open. -/
inductive LeavesOpen : List Move → List (Node × Bool) → Prop where
  | start {w : List Move} (hw : WellNested w) : LeavesOpen w []
  | reset (ms : List Move) {w : List Move} (hw : WellNested w) : LeavesOpen (ms ++ .reset :: w) []
  | enter {ms : List Move} {os : List (Node × Bool)} (h : LeavesOpen ms os) (n : Node)
      (qualifies : Bool) {w : List Move} (hw : WellNested w) :
      LeavesOpen (ms ++ .enter n qualifies :: w) ((n, qualifies) :: os)

namespace Scope

/-- Makes moves one after the other and gives the errors on the way. -/
def run (s : Scope) : List Move → List ScopeError × Scope
  | [] => ([], s)
  | m :: ms => ((s.move m).1.toList ++ ((s.move m).2.run ms).1, ((s.move m).2.run ms).2)

/-- The moves that are not refused. -/
def accepted (s : Scope) : List Move → List Move
  | [] => []
  | m :: ms =>
    if (s.move m).1.isNone then m :: (s.move m).2.accepted ms else (s.move m).2.accepted ms

@[simp] theorem run_nil (s : Scope) : s.run [] = ([], s) := rfl

@[simp] theorem run_enter_cons (s : Scope) (n : Node) (qualifies : Bool) (ms : List Move) :
    s.run (.enter n qualifies :: ms) = (s.enter n qualifies).run ms := rfl

@[simp] theorem run_reset_cons (s : Scope) (ms : List Move) :
    s.run (.reset :: ms) = s.reset.run ms := rfl

theorem run_exit_cons {s s' : Scope} {n : Node} (h : s.exit n = .ok s') (ms : List Move) :
    s.run (.exit n :: ms) = s'.run ms := by
  simp [run, move, h]

theorem run_append (s : Scope) (ms others : List Move) :
    s.run (ms ++ others) =
      ((s.run ms).1 ++ ((s.run ms).2.run others).1, ((s.run ms).2.run others).2) := by
  induction ms generalizing s with
  | nil => rfl
  | cons m ms ih => simp [run, ih]

/-- An exit that is refused leaves the scope as it was, and no other move is refused. -/
theorem eq_of_move_error {s s' : Scope} {m : Move} {e : ScopeError} (h : s.move m = (some e, s')) :
    s' = s ∧ ∃ n, m = .exit n := by
  cases m with
  | enter n qualifies => cases h
  | reset => cases h
  | exit n =>
      simp only [move] at h
      split at h
      · cases h
      · cases h
        exact ⟨rfl, n, rfl⟩

theorem run_accepted (s : Scope) (ms : List Move) : s.run (s.accepted ms) = ([], (s.run ms).2) := by
  induction ms generalizing s with
  | nil => rfl
  | cons m ms ih =>
      rcases hm : s.move m with ⟨_ | e, s'⟩
      · simp [accepted, run, hm, ih]
      · obtain ⟨rfl, -⟩ := eq_of_move_error hm
        simp [accepted, run, hm, ih]

end Scope

namespace WellNested

theorem append {ms others : List Move} (h : WellNested ms) (h' : WellNested others) :
    WellNested (ms ++ others) := by
  induction h with
  | nil => exact h'
  | node same qualifies hinner _ _ ih =>
      rw [List.append_assoc]
      exact node same qualifies hinner ih

/-- From whatever state, a well-nested word is accepted and gives the state back. -/
theorem run_eq {ms : List Move} (h : WellNested ms) (s : Scope) : s.run ms = ([], s) := by
  induction h generalizing s with
  | nil => rfl
  | @node n m same qualifies _ _ _ _ ihinner ihrest =>
      have hexit : (s.enter n qualifies).exit m = .ok s := by
        simp [Scope.exit, Scope.enter, same]
      rw [List.cons_append, Scope.run_enter_cons, Scope.run_append, ihinner,
        Scope.run_exit_cons hexit, ihrest]
      rfl

end WellNested

/-- The frames of open nodes. -/
def framesOf (os : List (Node × Bool)) : List Frame :=
  os.map fun o => ⟨o.1.address, o.2⟩

/-- An exit is only accepted from the innermost open node. -/
theorem Scope.exists_of_exit_accepted {s : Scope} {os : List (Node × Bool)} {m : Node}
    (hs : s.frames = framesOf os) (h : (s.move (.exit m)).1 = none) :
    ∃ n qualifies rest, os = (n, qualifies) :: rest ∧ n.address = m.address := by
  rcases os with _ | ⟨⟨n, qualifies⟩, rest⟩
  · simp [move, exit, hs, framesOf] at h
  · by_cases hsame : n.address = m.address
    · exact ⟨n, qualifies, rest, rfl, hsame⟩
    · simp [move, exit, hs, framesOf, hsame] at h

namespace LeavesOpen

variable {ms w : List Move} {os : List (Node × Bool)}

theorem append_wellNested (h : LeavesOpen ms os) (hw : WellNested w) : LeavesOpen (ms ++ w) os := by
  cases h with
  | start hw' => exact start (hw'.append hw)
  | reset ms hw' =>
      rw [List.append_assoc, List.cons_append]
      exact reset ms (hw'.append hw)
  | enter h n qualifies hw' =>
      rw [List.append_assoc, List.cons_append]
      exact enter h n qualifies (hw'.append hw)

/-- Leaving the innermost open node closes it. -/
theorem exit {n m : Node} {qualifies : Bool} (h : LeavesOpen ms ((n, qualifies) :: os))
    (same : n.address = m.address) : LeavesOpen (ms ++ [.exit m]) os := by
  cases h with
  | enter h _ _ hw =>
      rw [List.append_assoc]
      exact h.append_wellNested (.node same qualifies hw .nil)

/-- The open nodes of a word are what a fresh scope holds after it. -/
theorem frames_run (h : LeavesOpen ms os) (label : Text) :
    ((Scope.mk label []).run ms).2.frames = framesOf os := by
  induction h with
  | start hw => rw [hw.run_eq]; rfl
  | reset ms hw => rw [Scope.run_append, Scope.run_reset_cons, hw.run_eq]; rfl
  | enter _ n qualifies hw ih =>
      rw [Scope.run_append, Scope.run_enter_cons, hw.run_eq]
      simp [Scope.enter, ih, framesOf]

theorem wellNested (h : LeavesOpen ms []) (hreset : .reset ∉ ms) : WellNested ms := by
  cases h with
  | start hw => exact hw
  | reset => simp at hreset

/-- A word can be completed by leaving its open nodes. -/
theorem exists_wellNested (h : LeavesOpen ms os) (hreset : .reset ∉ ms) :
    ∃ rest, WellNested (ms ++ rest) := by
  induction os generalizing ms with
  | nil => exact ⟨[], by simpa using h.wellNested hreset⟩
  | cons o os ih =>
      obtain ⟨rest, hrest⟩ := ih (h.exit (m := o.1) rfl) (by simpa using hreset)
      exact ⟨.exit o.1 :: rest, by simpa using hrest⟩

end LeavesOpen

/-- Moves that are all accepted by a fresh scope are a word with open nodes. -/
theorem Scope.exists_leavesOpen {label : Text} {ms : List Move}
    (h : ((Scope.mk label []).run ms).1 = []) : ∃ os, LeavesOpen ms os := by
  induction ms using List.reverseRecOn with
  | nil => exact ⟨[], .start .nil⟩
  | append_singleton ms m ih =>
      rw [run_append, List.append_eq_nil_iff] at h
      obtain ⟨os, hos⟩ := ih h.1
      cases m with
      | enter n qualifies => exact ⟨_, hos.enter n qualifies .nil⟩
      | reset => exact ⟨[], .reset ms .nil⟩
      | exit m =>
          have haccepted : (((Scope.mk label []).run ms).2.move (.exit m)).1 = none := by
            simpa [run] using h.2
          obtain ⟨n, qualifies, rest, rfl, hsame⟩ :=
            exists_of_exit_accepted (hos.frames_run label) haccepted
          exact ⟨rest, hos.exit hsame⟩

namespace Scope

variable {label : Text} {ms : List Move}

theorem wellNested_iff (hreset : .reset ∉ ms) :
    ((Scope.mk label []).run ms).1 = [] ∧ ((Scope.mk label []).run ms).2.depth = 0 ↔
      WellNested ms := by
  constructor
  · rintro ⟨hrun, hdepth⟩
    obtain ⟨os, hos⟩ := exists_leavesOpen hrun
    have hnil : os = [] := by
      simpa [depth, hos.frames_run, framesOf] using hdepth
    rw [hnil] at hos
    exact hos.wellNested hreset
  · intro h
    rw [h.run_eq]
    exact ⟨rfl, rfl⟩

theorem exists_wellNested_iff (hreset : .reset ∉ ms) :
    ((Scope.mk label []).run ms).1 = [] ↔ ∃ rest, WellNested (ms ++ rest) := by
  constructor
  · intro hrun
    obtain ⟨os, hos⟩ := exists_leavesOpen hrun
    exact hos.exists_wellNested hreset
  · rintro ⟨rest, hrest⟩
    have hrun := congrArg Prod.fst (hrest.run_eq ⟨label, []⟩)
    rw [run_append, List.append_eq_nil_iff] at hrun
    exact hrun.1

/-- What was accepted of any moves has open nodes, and these are what the scope holds. -/
theorem frames_run_of_accepted {os : List (Node × Bool)}
    (h : LeavesOpen ((Scope.mk label []).accepted ms) os) :
    ((Scope.mk label []).run ms).2.frames = framesOf os := by
  have hframes := h.frames_run label
  rw [run_accepted] at hframes
  exact hframes

/-- What a scope accepts, from a fresh one on. Entries and exits are all accepted and leave no node
open exactly if they are well nested, and they are all accepted exactly if they are the beginning of
a well-nested word. Only exits are refused, and a refused exit changes nothing; a reset empties the
scope. After any moves the depth counts the open nodes of what was accepted, and one is inside
exactly if an open node qualifies. A well-nested word gives every state back. -/
theorem accepts_wellNested (label : Text) :
    let fresh : Scope := { label }
    (∀ ms, .reset ∉ ms →
        ((fresh.run ms).1 = [] ∧ (fresh.run ms).2.depth = 0 ↔ WellNested ms) ∧
        ((fresh.run ms).1 = [] ↔ ∃ rest, WellNested (ms ++ rest))) ∧
      (∀ (s s' : Scope) m e, s.move m = (some e, s') → s' = s ∧ ∃ n, m = .exit n) ∧
      (∀ s : Scope, s.move .reset = (none, { s with frames := [] })) ∧
      (∀ ms, (∃ os, LeavesOpen (fresh.accepted ms) os) ∧
        ∀ os, LeavesOpen (fresh.accepted ms) os →
          (fresh.run ms).2.depth = os.length ∧
            ((fresh.run ms).2.inside = true ↔ ∃ n, (n, true) ∈ os)) ∧
      ∀ (s : Scope) ms, WellNested ms → s.run ms = ([], s) := by
  intro fresh
  refine ⟨?_, fun s s' m e h => eq_of_move_error h, fun _ => rfl, ?_, fun s ms h => h.run_eq s⟩
  · intro ms hreset
    exact ⟨wellNested_iff hreset, exists_wellNested_iff hreset⟩
  · intro ms
    refine ⟨exists_leavesOpen (congrArg Prod.fst (fresh.run_accepted ms)), ?_⟩
    intro os hos
    have hframes := frames_run_of_accepted hos
    constructor
    · simp [depth, fresh, hframes, framesOf]
    · simp [inside, fresh, hframes, framesOf]

/-- Two nodes with the same value, the first of them opened twice, and an exit that takes one for
the other. -/
theorem accepts_wellNested_sameValue :
    let a : Node := ⟨[], .null⟩
    let b : Node := ⟨[.index 0], .null⟩
    WellNested [.enter a true, .enter b false, .exit b, .enter a false, .exit a, .exit a] ∧
      ¬ ∃ rest, WellNested ([.enter a true, .exit b] ++ rest) := by
  intro a b
  have hlaw := (accepts_wellNested "scope").1
  constructor
  · exact (hlaw _ (by simp)).1.1 (by decide)
  · rw [← (hlaw _ (by simp)).2]
    decide

end Scope

end UnderscoreLint
