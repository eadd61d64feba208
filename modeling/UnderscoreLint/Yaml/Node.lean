import UnderscoreLint.Yaml.Resolve

/-!
# Nodes of a YAML document

A node is a scalar, a sequence of nodes, or a mapping from nodes to nodes. Nodes refer to one
another by number, so that a node can stand in several places, and even inside of itself.
-/

namespace UnderscoreLint.Yaml

/-- The number of a node. -/
abbrev NodeId := Nat

/-- What a node is made of. -/
inductive Content where
  | scalar (text : Text)
  | sequence (items : List NodeId)
  | mapping (entries : List (NodeId × NodeId))

/-- A node and its tag. -/
structure Node where
  tag : Tag
  content : Content

/-- The nodes of a document, by number. -/
abbrev Nodes := Array Node

namespace Nodes

/-- The node of that number. -/
def node (ns : Nodes) (id : NodeId) : Node :=
  ns.getD id ⟨.unknown, .scalar ""⟩

/-- The tag of a node. -/
def tag (ns : Nodes) (id : NodeId) : Tag :=
  (ns.node id).tag

/-- What a node is made of. -/
def content (ns : Nodes) (id : NodeId) : Content :=
  (ns.node id).content

/-- The entries of a mapping; nothing else has entries. -/
def entries (ns : Nodes) (id : NodeId) : List (NodeId × NodeId) :=
  match ns.content id with
  | .mapping entries => entries
  | _ => []

/-- Gives a node another content. -/
def setContent (ns : Nodes) (id : NodeId) (c : Content) : Nodes :=
  ns.setIfInBounds id { ns.node id with content := c }

/-- Gives a node another tag. -/
def setTag (ns : Nodes) (id : NodeId) (t : Tag) : Nodes :=
  ns.setIfInBounds id { ns.node id with tag := t }

end Nodes

end UnderscoreLint.Yaml
