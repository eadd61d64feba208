import UnderscoreLint.Value

/-!
# Nodes

A node is a value together with its address: the names and positions that lead to
it from where the document is rooted. Two nodes with equal values at different
addresses are different nodes, and it is by the address that an exit from a node is
matched with its entry.

The accessors read what the naming rules need from a node. All of them are total:
a part that is missing or of the wrong kind is simply not there.
-/

namespace UnderscoreLint

/-- One step of an address. -/
inductive Step where
  | key (name : Text)
  | index (i : Nat)
  deriving DecidableEq, Repr

/-- The way from the root of a document to one of its parts. -/
abbrev Address := List Step

/-- A value at its address. -/
structure Node where
  address : Address
  value : Value
  deriving Inhabited

/-- A line or column as the parser recorded it. Some parsers write a boolean, which
counts as the number it stands for and is shown as it is. -/
inductive Coordinate where
  | int (n : Int)
  | bool (b : Bool)
  deriving DecidableEq, Repr

/-- The number of a coordinate. -/
def Coordinate.toInt : Coordinate → Int
  | .int n => n
  | .bool b => Scalar.ofBool b

/-- The coordinate as a scalar. -/
def Coordinate.toScalar : Coordinate → Scalar
  | .int n => .int n
  | .bool b => .bool b

/-- How a coordinate is shown. -/
def Coordinate.shown (c : Coordinate) : String :=
  c.toScalar.literal

/-- The coordinate that a value is, if it is one. -/
def Coordinate.ofValue? : Value → Option Coordinate
  | .scalar (.int n) => some (.int n)
  | .scalar (.bool b) => some (.bool b)
  | _ => none

/-- Where a node starts in the source text, as far as it is known. -/
structure Location where
  line : Option Coordinate
  column : Option Coordinate
  deriving DecidableEq, Repr, Inhabited

namespace Node

/-- The node under an attribute. -/
def attr? (n : Node) (name : Text) : Option Node :=
  (n.value.attr? name).map fun v => ⟨n.address ++ [.key name], v⟩

/-- The items of a list, numbered from `i` on, as nodes below `address`. -/
def number (address : Address) : (i : Nat) → List Value → List Node
  | _, [] => []
  | i, v :: rest => ⟨address ++ [.index i], v⟩ :: number address (i + 1) rest

/-- The items of a node that is a list; any other node has none. -/
def items (n : Node) : List Node :=
  match n.value with
  | .list vs => number n.address 0 vs
  | _ => []

/-- The items under an attribute that is a list, without the absent ones. -/
def members (n : Node) (name : Text) : List Node :=
  match n.attr? name with
  | some list => list.items.filter fun m => !m.value.isNull
  | none => []

/-- The text under an attribute. -/
def textAttr? (n : Node) (name : Text) : Option Text :=
  (n.value.attr? name).bind Value.text?

/-- The kind of a node: the text under `type`. -/
def kind? (n : Node) : Option Text :=
  n.textAttr? "type"

/-- The name of a node: the text under `name` unless it is empty. -/
def name? (n : Node) : Option Text :=
  (n.textAttr? "name").filter (· ≠ ("" : Text))

/-- The statements of the body block. A body that is absent or is a single
statement has none. -/
def bodyStatements (n : Node) : List Node :=
  match n.attr? "body" with
  | some body => body.members "statements"
  | none => []

/-- Where the node starts, when the parser recorded it. -/
def location (n : Node) : Location :=
  let start := (n.value.attr? "loc").bind (·.attr? "start")
  let coordinate (name : Text) := (start.bind (·.attr? name)).bind Coordinate.ofValue?
  ⟨coordinate "line", coordinate "column"⟩

/-- The names whose values are source positions and not parts of the tree. -/
def isPositionKey (name : Text) : Bool :=
  name == "loc" || name == "range"

/-- The mappings that one entry of a node leads to: its value, or the items of its
value. -/
def childrenAt (address : Address) (entry : Text × Value) : List Node :=
  if isPositionKey entry.1 then []
  else
    match entry.2 with
    | .map entries => [⟨address ++ [.key entry.1], .map entries⟩]
    | .list vs => (number (address ++ [.key entry.1]) 0 vs).filter (·.value.isMap)
    | _ => []

/-- The mappings directly below a node, in document order. -/
def children (n : Node) : List Node :=
  match n.value with
  | .map entries => entries.flatMap (childrenAt n.address)
  | _ => []

@[simp] theorem attr?_value (n : Node) (name : Text) :
    (n.attr? name).map (·.value) = n.value.attr? name := by
  simp [attr?, Function.comp_def]

@[simp] theorem map_value_number (address : Address) (i : Nat) (vs : List Value) :
    (number address i vs).map (·.value) = vs := by
  induction vs generalizing i with
  | nil => rfl
  | cons v rest ih => simp [number, ih]

end Node

end UnderscoreLint
