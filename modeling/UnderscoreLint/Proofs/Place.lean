import Mathlib.Data.List.Basic
import UnderscoreLint.Proofs.Traversal

/-!
# Places in a tree

A place is a node together with the nodes above it, the nearest first. Carrying the nodes above
along the recursion says in which surroundings a node is met, and no search from the root is
needed. `Place.preorder` lists the places at and below a place in the order in which a walk
enters them, and `Place.script` is the script of the walk with places instead of nodes.

`Nested open events open'` says that the events can be fired one after the other while the nodes
`open` are open: a node is entered directly below the innermost open node, and only the innermost
open node is left. The script of a place is nested (`Place.nested_script`), and so is each of its
initial parts (`Nested.exists_of_append`). What is shown of nested events therefore holds at every
moment of a walk.
-/

namespace UnderscoreLint

/-- A node and the nodes above it, the nearest first. -/
structure Place where
  node : Node
  above : List Node

namespace Place

def top (n : Node) : Place := ⟨n, []⟩

def below (p : Place) : List Place :=
  p.node.children.map fun c => ⟨c, p.node :: p.above⟩

theorem size_lt_of_mem_below {p q : Place} (h : q ∈ p.below) : q.node.size < p.node.size := by
  obtain ⟨c, hc, rfl⟩ := List.mem_map.1 h
  exact Node.size_lt_of_mem_children hc

theorem above_of_mem_below {p q : Place} (h : q ∈ p.below) : q.above = p.node :: p.above := by
  obtain ⟨c, -, rfl⟩ := List.mem_map.1 h
  rfl

/-- Induction over places: a property passes from the places below a place to the place. -/
@[elab_as_elim] theorem below_induction {motive : Place → Prop}
    (step : ∀ p, (∀ q ∈ p.below, motive q) → motive p) (p : Place) : motive p :=
  step p fun q _ => below_induction step q
termination_by p.node.size
decreasing_by exact size_lt_of_mem_below ‹_›

/-- The place and the places below it, in the order in which they are entered. -/
def preorder (p : Place) : List Place :=
  p :: p.below.attach.flatMap fun q => q.1.preorder
termination_by p.node.size
decreasing_by exact size_lt_of_mem_below q.2

theorem preorder_eq (p : Place) : p.preorder = p :: p.below.flatMap preorder := by
  rw [preorder, List.flatMap_subtype (g := preorder) fun _ _ => rfl, List.unattach_attach]

/-- The events of the tree below a place, in the order of the plain recursion. -/
def script (p : Place) : List (Phase × Place) :=
  [(.enter, p)] ++ (p.below.attach.flatMap fun q => q.1.script) ++ [(.exit, p)]
termination_by p.node.size
decreasing_by exact size_lt_of_mem_below q.2

theorem script_eq (p : Place) :
    p.script = [(.enter, p)] ++ p.below.flatMap script ++ [(.exit, p)] := by
  rw [script, List.flatMap_subtype (g := script) fun _ _ => rfl, List.unattach_attach]

/-- The events without the nodes above. -/
def events (os : List (Phase × Place)) : List (Phase × Node) :=
  os.map fun o => (o.1, o.2.node)

theorem events_script (p : Place) : events p.script = p.node.script := by
  induction p using below_induction with
  | step p ih =>
      have hbelow : events (p.below.flatMap script) = p.node.children.flatMap Node.script := by
        calc
          events (p.below.flatMap script) = p.below.flatMap fun q => events q.script :=
            List.map_flatMap
          _ = p.below.flatMap fun q => q.node.script := List.flatMap_congr ih
          _ = p.node.children.flatMap Node.script := List.flatMap_map ..
      rw [script_eq, Node.script_eq, ← hbelow]
      simp [events]

/-- What is said at entries, and only there, is said in the order of entering. -/
theorem flatMap_script {α : Type} (f : Place → List α) (p : Place) :
    (p.script.flatMap fun o => if o.1 = .enter then f o.2 else []) = p.preorder.flatMap f := by
  induction p using below_induction with
  | step p ih =>
      have hbelow := List.flatMap_congr ih
      rw [← List.flatMap_assoc, ← List.flatMap_assoc] at hbelow
      rw [script_eq, preorder_eq, List.flatMap_append, List.flatMap_append, hbelow,
        List.flatMap_cons]
      simp

theorem mem_preorder_of_mem_script {p q : Place} (h : (.enter, q) ∈ p.script) :
    q ∈ p.preorder := by
  have hentries := flatMap_script (fun q => [q]) p
  rw [List.flatMap_singleton'] at hentries
  rw [← hentries, List.mem_flatMap]
  exact ⟨_, h, List.mem_singleton_self q⟩

end Place

/-- Events that can be fired while the nodes of the first list are open, and that leave open the
nodes of the last. -/
inductive Nested : List Node → List (Phase × Place) → List Node → Prop where
  | nil (above : List Node) : Nested above [] above
  | enter {p : Place} {os : List (Phase × Place)} {last : List Node} :
      Nested (p.node :: p.above) os last → Nested p.above ((.enter, p) :: os) last
  | exit {p : Place} {os : List (Phase × Place)} {last : List Node} :
      Nested p.above os last → Nested (p.node :: p.above) ((.exit, p) :: os) last

namespace Nested

theorem append {first mid last : List Node} {os os' : List (Phase × Place)}
    (h : Nested first os mid) (h' : Nested mid os' last) : Nested first (os ++ os') last := by
  induction h with
  | nil _ => exact h'
  | enter _ ih => exact enter (ih h')
  | exit _ ih => exact exit (ih h')

/-- An initial part of nested events is nested. -/
theorem exists_of_append {first last : List Node} {os os' : List (Phase × Place)}
    (h : Nested first (os ++ os') last) : ∃ mid, Nested first os mid ∧ Nested mid os' last := by
  induction os generalizing first with
  | nil => exact ⟨first, nil first, h⟩
  | cons o os ih =>
      rw [List.cons_append] at h
      cases h with
      | enter h =>
          obtain ⟨mid, hmid, hlast⟩ := ih h
          exact ⟨mid, enter hmid, hlast⟩
      | exit h =>
          obtain ⟨mid, hmid, hlast⟩ := ih h
          exact ⟨mid, exit hmid, hlast⟩

theorem flatMap {above : List Node} {ps : List Place} {f : Place → List (Phase × Place)}
    (h : ∀ p ∈ ps, Nested above (f p) above) : Nested above (ps.flatMap f) above := by
  induction ps with
  | nil => exact nil above
  | cons p ps ih =>
      have hp := h p List.mem_cons_self
      have hps := ih fun q hq => h q (List.mem_cons_of_mem p hq)
      rw [List.flatMap_cons]
      exact append hp hps

end Nested

/-- A script opens what is below its place and closes all of it again. -/
theorem Place.nested_script (p : Place) : Nested p.above p.script p.above := by
  induction p using below_induction with
  | step p ih =>
      have hbelow : Nested (p.node :: p.above) (p.below.flatMap script) (p.node :: p.above) := by
        refine Nested.flatMap fun q hq => ?_
        have hq' := ih q hq
        rwa [above_of_mem_below hq] at hq'
      rw [script_eq, List.append_assoc]
      exact Nested.enter (hbelow.append (Nested.exit (Nested.nil p.above)))

end UnderscoreLint
