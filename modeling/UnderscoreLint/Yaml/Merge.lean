import UnderscoreLint.Yaml.Error
import UnderscoreLint.Yaml.Node

/-!
# Merging mappings

The value of a merge key is a mapping, or a sequence of mappings, whose entries are brought
into the mapping around the key. They come before its own entries, so that these win. Mappings
that are brought in are merged themselves first. `mergeKeys` carries that out on the nodes of
a document: afterwards the mapping has no merge key, and a key that stood for a default is an
ordinary text.

A merge key is taken out of its mapping before its value is looked at. So a mapping may be
brought into itself, and there are never more steps than there are merge keys. Only so many
mappings may wait for one another as there is room for.
-/

namespace UnderscoreLint.Yaml

/-- A step of merging. -/
abbrev Merging := StateT Nodes (Except Error)

/-- The value of the first merge key of a list of entries, and the other entries. -/
def takeMerge (ns : Nodes) : List (NodeId × NodeId) → Option (NodeId × List (NodeId × NodeId))
  | [] => none
  | (key, value) :: rest =>
    if ns.tag key = .merge then some (value, rest)
    else (takeMerge ns rest).map fun (v, others) => (v, (key, value) :: others)

/-- Makes the keys of entries that stand for a default ordinary texts. -/
def nameDefaults (entries : List (NodeId × NodeId)) (ns : Nodes) : Nodes :=
  entries.foldl (fun ns e => if ns.tag e.1 = .default then ns.setTag e.1 .str else ns) ns

/-- How many merge keys there are in all mappings. -/
def mergeCount (ns : Nodes) : Nat :=
  ns.foldl (fun n node => match node.content with
    | .mapping entries => n + entries.countP fun e => decide (ns.tag e.1 = .merge)
    | _ => n) 0

/-- Goes on to a mapping that is brought in, if there is room. -/
def inside (room : Nat) (merge : Nat → Merging Unit) : Merging Unit :=
  match room with
  | 0 => throw .tooDeep
  | room + 1 => merge room

/-- Takes the merge keys out of a mapping one after the other, and brings in what they stand
for together with what was `brought` before. While it waits, `room` mappings may be merged into
one another. -/
def mergeFrom : Nat → (room : Nat) → NodeId → (brought : List (NodeId × NodeId)) → Merging Unit
  | 0, _, _, _ => throw .malformed
  | fuel + 1, room, id, brought => do
    let ns ← get
    match takeMerge ns (ns.entries id) with
    | none =>
      let own := ns.entries id
      set ((nameDefaults own ns).setContent id (.mapping (brought ++ own)))
    | some (value, others) =>
      set (ns.setContent id (.mapping others))
      match ns.content value with
      | .mapping _ =>
        inside room fun room => mergeFrom fuel room value []
        mergeFrom fuel room id (brought ++ (← get).entries value)
      | .sequence items =>
        let groups ← items.mapM fun item => do
          match (← get).content item with
          | .mapping _ =>
            inside room fun room => mergeFrom fuel room item []
            return (← get).entries item
          | _ => throw .malformed
        mergeFrom fuel room id (brought ++ groups.reverse.flatten)
      | .scalar _ => throw .malformed

/-- Merges into a mapping what its merge keys stand for. -/
def mergeKeys (room : Nat) (id : NodeId) : Merging Unit := do
  mergeFrom (mergeCount (← get) + 1) room id []

end UnderscoreLint.Yaml
