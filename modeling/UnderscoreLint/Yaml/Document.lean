import UnderscoreLint.Yaml.Node
import UnderscoreLint.Yaml.Tokens

/-!
# Documents

`document` puts tokens together to the nodes of the one document that a text may hold, and
gives each node its tag. An alias stands for the node that its anchor was given to before; a
collection has its anchor while its parts are read, so that it can be a part of itself. Where a
node could stand and none does, there is an empty plain scalar. Only so many collections may be
open at once as there is room for.
-/

namespace UnderscoreLint.Yaml

/-- The state of putting tokens together. -/
structure Assembly where
  tokens : List Token
  /-- Why there are no tokens behind these. -/
  stop : Error
  nodes : Nodes := #[]
  anchors : List (String × NodeId) := []
  /-- What the handles of tags stand for. -/
  handles : List (String × String) := []
  /-- How many collections may still be opened. -/
  room : Nat

/-- A step of putting tokens together. -/
abbrev Assemble := StateT Assembly (Except Error)

namespace Assemble

/-- Gives up on the text. -/
def refuse {α : Type} : Assemble α :=
  throw .malformed

/-- The next token. -/
def peek : Assemble Token := do
  let s ← get
  match s.tokens with
  | t :: _ => return t
  | [] => throw s.stop

/-- Whether the next token is one of these. -/
def ahead (ts : List Token) : Assemble Bool := do
  return ts.contains (← peek)

/-- Passes a token. -/
def skip : Assemble Unit :=
  modify fun s => { s with tokens := s.tokens.tail }

/-- Passes a token if it is the next one; tells whether it was. -/
def accept (t : Token) : Assemble Bool := do
  if ← ahead [t] then
    skip
    return true
  else return false

/-- Passes a token, which has to be the next one. -/
def expect (t : Token) : Assemble Unit := do
  if !(← accept t) then refuse

/-- Passes an anchor if there is one. -/
def anchor? : Assemble (Option String) := do
  match ← peek with
  | .anchor name =>
    skip
    return some name
  | _ => return none

/-- Passes a tag if there is one: its handle, unless it is written out, and the rest. -/
def tag? : Assemble (Option (Option String × String)) := do
  match ← peek with
  | .tag handle suffix =>
    skip
    return some (handle, suffix)
  | _ => return none

/-- The full name of a tag. -/
def tagName : Option (Option String × String) → Assemble (Option String)
  | none => return none
  | some (none, suffix) => return some suffix
  | some (some handle, suffix) => do
    match (← get).handles.lookup handle with
    | some expansion => return some (expansion ++ suffix)
    | none => refuse

/-- Passes an anchor and a tag, in either order. -/
def properties : Assemble (Option String × Option String) := do
  match ← anchor? with
  | some name =>
    let tag ← tagName (← tag?)
    return (some name, tag)
  | none =>
    match ← tag? with
    | none => return (none, none)
    | some tag =>
      let name ← anchor?
      return (name, ← tagName tag)

/-- Adds a node, and gives it its anchor. An anchor is given only once. -/
def add (name : Option String) (n : Node) : Assemble NodeId := do
  let s ← get
  let id := s.nodes.size
  match name with
  | none =>
    set { s with nodes := s.nodes.push n }
    return id
  | some name =>
    if (s.anchors.lookup name).isSome then refuse
    set { s with nodes := s.nodes.push n, anchors := (name, id) :: s.anchors }
    return id

/-- Reads what is inside of a collection, if there is room. -/
def inside {α : Type} (parts : Assemble α) : Assemble α := do
  match (← get).room with
  | 0 => throw .tooDeep
  | room + 1 =>
    modify fun s => { s with room }
    let a ← parts
    modify fun s => { s with room := room + 1 }
    return a

/-- Adds a collection. It has its anchor already while its parts are read. -/
def addCollection (name : Option String) (tag : Tag) (empty : Content) (parts : Assemble Content) :
    Assemble NodeId := do
  let id ← add name ⟨tag, empty⟩
  let content ← inside parts
  modify fun s => { s with nodes := s.nodes.setContent id content }
  return id

/-- What stands where nothing is written. -/
def empty : Assemble NodeId :=
  add none ⟨resolve "", .scalar ""⟩

/-- The tag of a scalar. The mark alone asks for the meaning of the spelling, and so does a
plain scalar without tag. -/
def scalarTag (tag : Option String) (text : Text) (plain : Bool) : Tag :=
  match tag with
  | none => if plain then resolve text.legible else .str
  | some "!" => resolve text.legible
  | some name => Tag.ofName name

/-- The tag of a collection that is `usual` without one. -/
def collectionTag (tag : Option String) (usual : Tag) : Tag :=
  match tag with
  | none | some "!" => usual
  | some name => Tag.ofName name

/-- Adds a scalar. -/
def addScalar (name tag : Option String) (text : Text) (plain : Bool) : Assemble NodeId :=
  add name ⟨scalarTag tag text plain, .scalar text⟩

/-- Adds a sequence. -/
def addSequence (name tag : Option String) (items : Assemble (List NodeId)) : Assemble NodeId :=
  addCollection name (collectionTag tag .seq) (.sequence []) (Content.sequence <$> items)

/-- Adds a mapping. -/
def addMapping (name tag : Option String) (entries : Assemble (List (NodeId × NodeId))) :
    Assemble NodeId :=
  addCollection name (collectionTag tag .map) (.mapping []) (Content.mapping <$> entries)

/-- Adds an empty scalar where an anchor or a tag stands for itself. -/
def addBare (name tag : Option String) : Assemble NodeId :=
  if name.isSome || tag.isSome then addScalar name tag "" true else refuse

mutual

/-- Reads a node. Block collections are read only where `block` holds, and sequences at the
indentation of the mapping around them only where `indentless` does. -/
def node (block indentless : Bool) : Nat → Assemble NodeId
  | 0 => refuse
  | fuel + 1 => do
    match ← peek with
    | .alias name =>
      skip
      match (← get).anchors.lookup name with
      | some id => return id
      | none => refuse
    | _ =>
      let (name, tag) ← properties
      content block indentless name tag fuel

/-- Reads what follows the anchor and the tag of a node. -/
def content (block indentless : Bool) (name tag : Option String) : Nat → Assemble NodeId
  | 0 => refuse
  | fuel + 1 => do
    match ← peek with
    | .blockEntry =>
      if indentless then addSequence name tag (indentlessItems fuel) else addBare name tag
    | .scalar text plain =>
      skip
      addScalar name tag text plain
    | .flowSequenceStart =>
      skip
      addSequence name tag (flowItems true fuel)
    | .flowMappingStart =>
      skip
      addMapping name tag (flowEntries true fuel)
    | .blockSequenceStart =>
      if block then
        skip
        addSequence name tag (blockItems fuel)
      else addBare name tag
    | .blockMappingStart =>
      if block then
        skip
        addMapping name tag (blockEntries fuel)
      else addBare name tag
    | _ => addBare name tag

/-- Reads a node, or the empty one if one of the tokens `before` comes first. -/
def nodeUnless (before : List Token) (block indentless : Bool) : Nat → Assemble NodeId
  | 0 => refuse
  | fuel + 1 => do
    if ← ahead before then empty else node block indentless fuel

/-- Reads the items of a block sequence and its end. -/
def blockItems : Nat → Assemble (List NodeId)
  | 0 => refuse
  | fuel + 1 => do
    if ← accept .blockEntry then
      let item ← nodeUnless [.blockEntry, .blockEnd] true false fuel
      return item :: (← blockItems fuel)
    else
      expect .blockEnd
      return []

/-- Reads the items of a block sequence that is not indented. -/
def indentlessItems : Nat → Assemble (List NodeId)
  | 0 => refuse
  | fuel + 1 => do
    if ← accept .blockEntry then
      let item ← nodeUnless [.blockEntry, .key, .value, .blockEnd] true false fuel
      return item :: (← indentlessItems fuel)
    else return []

/-- Reads the entries of a block mapping and its end. -/
def blockEntries : Nat → Assemble (List (NodeId × NodeId))
  | 0 => refuse
  | fuel + 1 => do
    if ← accept .key then
      let key ← nodeUnless [.key, .value, .blockEnd] true true fuel
      let value ← blockValue fuel
      return (key, value) :: (← blockEntries fuel)
    else
      expect .blockEnd
      return []

/-- Reads the value of an entry of a block mapping. -/
def blockValue : Nat → Assemble NodeId
  | 0 => refuse
  | fuel + 1 => do
    if ← accept .value then nodeUnless [.key, .value, .blockEnd] true true fuel
    else empty

/-- Reads the items of a flow sequence and its end. An item may be a single entry of a
mapping. -/
def flowItems (first : Bool) : Nat → Assemble (List NodeId)
  | 0 => refuse
  | fuel + 1 => do
    if ← accept .flowSequenceEnd then return []
    else
      if !first then expect .flowEntry
      if ← accept .key then
        let item ← addMapping none none do
          let key ← nodeUnless [.value, .flowEntry, .flowSequenceEnd] false false fuel
          let value ← flowValue [.flowEntry, .flowSequenceEnd] fuel
          return [(key, value)]
        return item :: (← flowItems false fuel)
      else if ← accept .flowSequenceEnd then return []
      else
        let item ← node false false fuel
        return item :: (← flowItems false fuel)

/-- Reads the entries of a flow mapping and its end. A node without a value is a key. -/
def flowEntries (first : Bool) : Nat → Assemble (List (NodeId × NodeId))
  | 0 => refuse
  | fuel + 1 => do
    if ← accept .flowMappingEnd then return []
    else
      if !first then expect .flowEntry
      if ← accept .key then
        let key ← nodeUnless [.value, .flowEntry, .flowMappingEnd] false false fuel
        let value ← flowValue [.flowEntry, .flowMappingEnd] fuel
        return (key, value) :: (← flowEntries false fuel)
      else if ← accept .flowMappingEnd then return []
      else
        let key ← node false false fuel
        let value ← empty
        return (key, value) :: (← flowEntries false fuel)

/-- Reads the value of an entry in a flow collection. -/
def flowValue (before : List Token) : Nat → Assemble NodeId
  | 0 => refuse
  | fuel + 1 => do
    if ← accept .value then nodeUnless before false false fuel else empty

end

/-- The handles that are always there. -/
def usualHandles : List (String × String) := [("!", "!"), ("!!", "tag:yaml.org,2002:")]

/-- Passes the directives before a document. A version is given at most once and has to be
one; so is what a handle stands for. -/
def directives : Nat → (version : Bool) → List (String × String) → Assemble (List (String × String))
  | 0, _, handles => return handles
  | fuel + 1, version, handles => do
    match ← peek with
    | .directive (.version major) =>
      if version || major != 1 then refuse
      skip
      directives fuel true handles
    | .directive (.tag handle expansion) =>
      if (handles.lookup handle).isSome then refuse
      skip
      directives fuel version (handles ++ [(handle, expansion)])
    | .directive .other =>
      skip
      directives fuel version handles
    | _ => return handles

/-- Passes the ends of documents. -/
def documentEnds : Nat → Assemble Unit
  | 0 => pure ()
  | fuel + 1 => do
    if ← accept .documentEnd then documentEnds fuel

/-- Whether the next token is a directive. -/
def atDirective : Assemble Bool := do
  match ← peek with
  | .directive _ => return true
  | _ => return false

/-- Passes the directives and the marker that start a document. -/
def documentStart (fuel : Nat) : Assemble Unit := do
  let handles ← directives fuel false []
  expect .documentStart
  modify fun s => { s with handles := handles ++ usualHandles }

/-- Reads the root of a document that starts with its marker, if there is such a document. -/
def markedDocument (fuel : Nat) : Assemble (Option NodeId) := do
  documentEnds fuel
  if ← ahead [.streamEnd] then return none
  else
    documentStart fuel
    if ← atDirective then some <$> empty
    else some <$> nodeUnless [.documentStart, .documentEnd, .streamEnd] true false fuel

/-- Passes what is left of the text, in which no other document may start. -/
def textEnd (fuel : Nat) : Assemble Unit := do
  documentEnds fuel
  if !(← accept .streamEnd) then
    documentStart fuel
    refuse

/-- Reads the root of the only document, if there is one, up to the end of the text. -/
def document (fuel : Nat) : Assemble (Option NodeId) := do
  let marked ← if ← atDirective then pure true else ahead [.documentStart, .streamEnd]
  let root ←
    if marked then markedDocument fuel
    else
      modify fun s => { s with handles := usualHandles }
      some <$> node true false fuel
  if root.isSome then textEnd fuel
  return root

end Assemble

/-- A document: its nodes, and which of them is the root. -/
structure Document where
  nodes : Nodes
  root : NodeId

/-- The only document that the tokens of a text make up, if there is one. What stopped the
cutting of the text counts once all tokens before it are used up. -/
def document (room : Nat) (c : Cut) : Except Error (Option Document) := do
  let fuel := 4 * c.tokens.length + 8
  let start : Assembly := { tokens := c.tokens, stop := c.stop.getD .malformed, room }
  let (root, s) ← (Assemble.document fuel).run start
  return root.map fun id => ⟨s.nodes, id⟩

end UnderscoreLint.Yaml
