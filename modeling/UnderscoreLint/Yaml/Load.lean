import UnderscoreLint.Base64
import UnderscoreLint.Limits
import UnderscoreLint.Yaml.Document
import UnderscoreLint.Yaml.Members
import UnderscoreLint.Yaml.Merge
import UnderscoreLint.Yaml.Number
import UnderscoreLint.Yaml.Part

/-!
# Loading YAML

`Yaml.load` turns a text into the parts of its document. Each node is loaded once. Scalars
are loaded when they are met; collections are loaded one after the other, in the order in
which they are met, and so of two errors the one nearer to the root is found first. Keys are
atoms; of keys that coincide, the first keeps its place and the last gives the value.
-/

namespace UnderscoreLint.Yaml

/-- The text of a scalar. A mapping in its place gives its default, which may again be a mapping,
`room` times over. -/
def textOf (ns : Nodes) (room : Nat) (id : NodeId) : Except Error Text :=
  match ns.content id with
  | .scalar text => .ok text
  | .sequence _ => .error .malformed
  | .mapping entries =>
    match entries.find? fun e => ns.tag e.1 = .default with
    | none => .error .malformed
    | some (_, value) =>
      match room with
      | 0 => .error .tooDeep
      | room + 1 => textOf ns room value

/-- The truth value of a word. -/
def readBool (text : String) : Except Error Bool :=
  let word := text.toLower
  if trueWords.contains word then .ok true
  else if falseWords.contains word then .ok false
  else .error .unknownWord

/-- The bytes of a text in base 64. -/
def readBytes (text : String) : Except Error (List UInt8) :=
  let cs := text.toList
  match if cs.all fun c => decide (c.toNat < 0x80) then Base64.decode? cs else none with
  | some bytes => .ok bytes
  | none => .error .malformed

/-- The atom of a node whose tag is that of a scalar. -/
def atomOf (ns : Nodes) (room : Nat) (id : NodeId) : Except Error Atom :=
  let text := textOf ns room id
  match ns.tag id with
  | .null => do
    let _ ← text
    return .scalar .null
  | .bool => return .scalar (.bool (← readBool (← text).legible))
  | .int => return .scalar (.int (← readInt (← text).legible))
  | .float => return .scalar (.float (← readFloat (← text).legible))
  | .str => return .text (← text)
  | .binary => return .bytes (← readBytes (← text).legible)
  | .timestamp => do
    let written ← text
    match ns.content id, timestamp? (dropFinalBreak written.legible.toList) with
    | .scalar _, some t => t.atom
    | .scalar _, none => .error .notATime
    | _, _ => .error .timeByDefault
  | _ => .error .malformed

/-- A key of a mapping. -/
structure Key where
  node : NodeId
  atom : Atom
  /-- Whether it is given by the word for NaN. -/
  isNan : Bool

/-- Whether two keys coincide: they are the same node, or equal. A NaN is equal to nothing, but
its word stands for the same one wherever it is written. -/
def Key.same (k l : Key) : Bool :=
  k.node == l.node || k.atom.same l.atom || (k.isNan && l.isNan)

/-- Puts `v` under `key`. A key that coincides with one that is there leaves that one in its
place and gives it the new value; a new one goes to the end. -/
def Key.put {α : Type} (key : Key) (v : α) : List (Key × α) → List (Key × α)
  | [] => [(key, v)]
  | e :: rest => if e.1.same key then (e.1, v) :: rest else e :: put key v rest

/-- The state of loading. -/
structure Loading where
  limits : Limits
  nodes : Nodes
  /-- What nodes have loaded to so far. -/
  parts : Array (Option Part)
  /-- The collections that are not loaded yet, the last one first. -/
  waiting : List NodeId := []

/-- A step of loading. -/
abbrev Load := StateT Loading (Except Error)

namespace Load

/-- Gives up on the document. -/
def refuse {α : Type} : Load α :=
  throw .malformed

/-- Keeps the part of a node. -/
def keep (id : NodeId) (p : Part) : Load Unit :=
  modify fun s => { s with parts := s.parts.setIfInBounds id (some p) }

/-- Meets a node: loads it if it is a scalar, and puts it off if it is a collection. -/
def visit (id : NodeId) : Load Unit := do
  let s ← get
  if (s.parts.getD id none).isNone then
    let later (empty : Part) : Load Unit := do
      keep id empty
      modify fun s => { s with waiting := id :: s.waiting }
    match s.nodes.tag id with
    | .seq => later (.list [])
    | .pairs => later (.pairs [])
    | .set => later (.set [])
    | .map => later (.map [])
    | _ => keep id (.atom (← atomOf s.nodes s.limits.defaults id))

/-- The key that a node has been loaded to, which has to be an atom. -/
def keyOf (id : NodeId) : Load Key := do
  let s ← get
  match s.parts.getD id none with
  | some (.atom a) =>
    let isNan ←
      if s.nodes.tag id = .float then
        pure (isNanWord (← textOf s.nodes s.limits.defaults id).legible)
      else pure false
    return ⟨id, a, isNan⟩
  | _ => refuse

/-- The items of a sequence. -/
def itemsOf (id : NodeId) : Load (List NodeId) := do
  match (← get).nodes.content id with
  | .sequence items => return items
  | _ => refuse

/-- Loads the items of a sequence. -/
def list (id : NodeId) : Load Part := do
  let items ← itemsOf id
  items.forM visit
  return .list items

/-- Loads the one entry of an item of a list of pairs. -/
def pair (id : NodeId) : Load (NodeId × NodeId) := do
  match (← get).nodes.entries id with
  | [(first, second)] =>
    visit first
    visit second
    return (first, second)
  | _ => refuse

/-- Loads the items of a list of pairs. -/
def pairs (id : NodeId) : Load Part := do
  let items ← itemsOf id
  return .pairs (← items.mapM pair)

/-- Loads the entries of a mapping, after merging. -/
def entries (id : NodeId) : Load (List (Key × NodeId)) := do
  let s ← get
  match s.nodes.content id with
  | .mapping _ =>
    let (_, nodes) ← (mergeKeys s.limits.merges id).run s.nodes
    set { s with nodes }
    (nodes.entries id).foldlM (fun done (key, value) => do
      visit key
      let k ← keyOf key
      visit value
      return k.put value done) []
  | _ => refuse

/-- Loads the members of a set, which are the keys of a mapping. -/
def members (id : NodeId) : Load Part := do
  return .set (memberOrder ((← entries id).map (·.1.atom)))

/-- Loads a mapping. -/
def mapping (id : NodeId) : Load Part := do
  return .map ((← entries id).map fun (key, value) => (key.atom, value))

/-- Loads a collection. -/
def collection (id : NodeId) : Load Unit := do
  let p ← match (← get).nodes.tag id with
    | .seq => list id
    | .pairs => pairs id
    | .set => members id
    | _ => mapping id
  keep id p

/-- Loads the collections that wait, and those met in the meantime. -/
def collections : Nat → Load Unit
  | 0 => pure ()
  | fuel + 1 => do
    let s ← get
    if !s.waiting.isEmpty then
      set { s with waiting := [] }
      s.waiting.reverse.forM collection
      collections fuel

end Load

/-- Loads a document. -/
def Document.load (limits : Limits) (d : Document) : Except Error Loaded := do
  let start : Loading := { limits, nodes := d.nodes, parts := Array.replicate d.nodes.size none }
  let (_, s) ← (do Load.visit d.root; Load.collections d.nodes.size : Load Unit).run start
  return ⟨s.parts.map fun p => p.getD (.atom (.scalar .null)), d.root⟩

/-- Loads the document of a file, if there is one. -/
def load (limits : Limits) (content : ByteArray) : Except Error (Option Loaded) := do
  match ← document limits.yaml (cut (supply content)) with
  | none => return none
  | some d => return some (← d.load limits)

end UnderscoreLint.Yaml
