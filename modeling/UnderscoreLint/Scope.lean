import UnderscoreLint.Node

/-!
# Scopes

A scope remembers which nodes are open: those that were entered and not left yet,
the innermost first. Each carries whether it qualifies, and one is inside of the scope
while some open node qualifies. A node can only be left while it is the innermost open
one; any other exit is an error and changes nothing.
-/

namespace UnderscoreLint

/-- An open node: its address, and whether it qualifies. -/
structure Frame where
  address : Address
  qualifies : Bool
  deriving DecidableEq, Repr

/-- The open nodes under a label for messages. -/
structure Scope where
  label : Text
  frames : List Frame := []
  deriving DecidableEq, Repr

/-- Why a node cannot be left: no node is open, or another one is innermost. -/
inductive ScopeError where
  | neverEntered (label : Text) (kind : Option Text)
  | notInnermost (label : Text) (kind : Option Text)
  deriving DecidableEq, Repr

/-- How a node is called in a message: by its kind, if that is not empty. -/
def ScopeError.calling (kind : Option Text) : Text :=
  (kind.filter (· ≠ ("" : Text))).getD "node"

/-- The words of a scope error. -/
def ScopeError.message : ScopeError → Text
  | .neverEntered label kind => label ++ ": exit from " ++ calling kind ++ " that was never entered"
  | .notInnermost label kind =>
    label ++ ": exit from " ++ calling kind ++ " does not match the innermost entered node"

/-- A step of a scope. -/
inductive Move where
  | enter (n : Node) (qualifies : Bool)
  | exit (n : Node)
  | reset

namespace Scope

/-- Whether some open node qualifies. -/
def inside (s : Scope) : Bool :=
  s.frames.any (·.qualifies)

/-- The number of open nodes. -/
def depth (s : Scope) : Nat :=
  s.frames.length

/-- Opens a node. -/
def enter (s : Scope) (n : Node) (qualifies : Bool) : Scope :=
  { s with frames := ⟨n.address, qualifies⟩ :: s.frames }

/-- Closes a node, which has to be the innermost open one. -/
def exit (s : Scope) (n : Node) : Except ScopeError Scope :=
  match s.frames with
  | [] => .error (.neverEntered s.label n.kind?)
  | f :: rest =>
    if f.address = n.address then .ok { s with frames := rest }
    else .error (.notInnermost s.label n.kind?)

/-- Closes every open node. -/
def reset (s : Scope) : Scope :=
  { s with frames := [] }

/-- Makes a move. An exit that fails gives its error and leaves the scope as it was. -/
def move (s : Scope) : Move → Option ScopeError × Scope
  | .enter n qualifies => (none, s.enter n qualifies)
  | .exit n =>
    match s.exit n with
    | .ok s' => (none, s')
    | .error e => (some e, s)
  | .reset => (none, s.reset)

@[simp] theorem depth_enter (s : Scope) (n : Node) (qualifies : Bool) :
    (s.enter n qualifies).depth = s.depth + 1 := rfl

@[simp] theorem inside_enter (s : Scope) (n : Node) (qualifies : Bool) :
    (s.enter n qualifies).inside = (qualifies || s.inside) := rfl

end Scope

end UnderscoreLint
