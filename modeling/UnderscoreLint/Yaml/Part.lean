import UnderscoreLint.Outline
import UnderscoreLint.Yaml.Node

/-!
# Parts of a loaded document

What the nodes of a document load to. A part refers to others by the numbers of their nodes,
so that what is one node in the text is one part too. `Parts.datum` writes a part out as a
tree, with a mark where it would have to be written out inside of itself.
-/

namespace UnderscoreLint.Yaml

/-- What a node loads to. -/
inductive Part where
  | atom (a : Atom)
  | list (items : List NodeId)
  | pairs (items : List (NodeId × NodeId))
  | set (members : List Atom)
  | map (entries : List (Atom × NodeId))

/-- The parts of a document, by the numbers of their nodes. -/
abbrev Parts := Array Part

namespace Parts

/-- The part of that number. -/
def part (ps : Parts) (id : NodeId) : Part :=
  ps.getD id (.atom (.scalar .null))

/-- Writes a part out; `around` are the parts around it. -/
def datumFrom (ps : Parts) : Nat → (around : List NodeId) → NodeId → Datum
  | 0, _, _ => .null
  | fuel + 1, around, id =>
    let inside := around.contains id
    let next := datumFrom ps fuel (id :: around)
    match ps.part id with
    | .atom a => .atom a
    | .list items => if inside then .listAgain else .list (items.map next)
    | .pairs items =>
      if inside then .listAgain
      else .list (items.map fun (first, second) => .pair (next first) (next second))
    | .set members => .set members
    | .map entries =>
      if inside then .mapAgain else .map (entries.map fun (key, value) => (key, next value))

/-- Writes a part out. No way down is longer than the number of parts. -/
def datum (ps : Parts) (id : NodeId) : Datum :=
  ps.datumFrom (ps.size + 1) [] id

end Parts

/-- A loaded document, or a part of one: the parts, and which of them it is. -/
structure Loaded where
  parts : Parts
  root : NodeId

/-- A loaded document at first sight. -/
def Loaded.outline (d : Loaded) : Outline Loaded :=
  match d.parts.part d.root with
  | .atom a => .atom a
  | .list _ | .pairs _ => .list
  | .set members => .set members
  | .map entries => .map (entries.map fun (key, value) => (key, ⟨d.parts, value⟩))

instance : Outlined Loaded where
  outline := Loaded.outline
  datum d := d.parts.datum d.root

end UnderscoreLint.Yaml
