import UnderscoreLint.Marker
import UnderscoreLint.Node

/-!
# What the conventions find at a node

The checks of the naming conventions as functions of a single node. Each gives the
remarks in the order in which they are reported. None of them looks at anything but the
node it is given: what depends on the surroundings of a node is decided by the caller.
-/

namespace UnderscoreLint

/-- Something to say about a node. -/
structure Remark where
  node : Node
  message : Text
  deriving Inhabited

namespace Remark

/-- The remark that a name should, or should not, start with the marker. -/
def start (should : Bool) (n : Node) (name : Text) : Remark :=
  ⟨n, "'" ++ name ++ (if should then "' should start with _" else "' should not start with _")⟩

/-- The remark that a name should, or should not, end with the marker. -/
def finish (should : Bool) (n : Node) (name : Text) : Remark :=
  ⟨n, "'" ++ name ++ (if should then "' should end with _" else "' should not end with _")⟩

/-- The visibilities of members that are not seen from outside. What the parser records
where none is written is among them. -/
def hiddenVisibilities : List Text := ["private", "internal", "default"]

/-- Whether a visibility hides a member. Only scalars can be looked up among the
visibilities; for anything else there is no answer. -/
def isHidden? : Option Value → Option Bool
  | none => some false
  | some (.scalar (.text s)) => some (hiddenVisibilities.contains s)
  | some (.scalar _) => some false
  | some _ => none

/-- A member of a library starts with the marker exactly if it is hidden. A member
without a name is fine as it is; a named one whose visibility cannot be looked up gives
no answer. -/
def ofMember? (n : Node) : Option (List Remark) :=
  match n.name? with
  | none => some []
  | some name =>
    (isHidden? (n.value.attr? "visibility")).map fun hidden =>
      if Marker.leads name = hidden then [] else [start hidden n name]

/-- A named parameter ends with the marker and does not start with it. -/
def ofParameter (n : Node) : List Remark :=
  match n.name? with
  | none => []
  | some name =>
    (if Marker.trails name then [] else [finish true n name]) ++
      (if Marker.leads name then [start false n name] else [])

/-- The parameters listed under an attribute of a node. -/
def ofParameters (listed : Text) (n : Node) : List Remark :=
  (n.members listed).flatMap ofParameter

/-- A named local variable starts with the marker and does not end with it. -/
def ofLocal (n : Node) : List Remark :=
  match n.name? with
  | none => []
  | some name =>
    (if Marker.leads name then [] else [start true n name]) ++
      (if Marker.trails name then [finish false n name] else [])

/-- The kind of the statements that declare local variables. -/
def declarationKind : Text := "VariableDeclarationStatement"

/-- The variables declared by the statements of a node's own body block. Blocks inside of
the body are left to their own loop or function. -/
def ofBody (n : Node) : List Remark :=
  (n.bodyStatements.filter (·.kind? == some declarationKind)).flatMap fun s =>
    (s.members "variables").flatMap ofLocal

end Remark

end UnderscoreLint
