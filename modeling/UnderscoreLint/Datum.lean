import UnderscoreLint.Atom
import UnderscoreLint.Value

/-!
# Data

What a configuration document loads to: atoms, lists, pairs, sets of atoms, and mappings
whose keys are atoms. No two keys of a mapping are equal.

The parts of a document can be shared, and a list or a mapping can even be a part of itself.
A datum is the document written out as a tree; where a list or mapping would have to be
written out inside of itself there is a mark instead.

A datum is shown in messages with brackets and braces around its parts, the parts in
quotes where they are texts. Values of syntax trees are shown the same way, through
`Value.toDatum`.
-/

namespace UnderscoreLint

/-- A loaded document, or a part of one. -/
inductive Datum where
  | atom (a : Atom)
  | list (items : List Datum)
  | pair (first second : Datum)
  | set (members : List Atom)
  | map (entries : List (Atom × Datum))
  /-- A list inside of itself. -/
  | listAgain
  /-- A mapping inside of itself. -/
  | mapAgain
  deriving Inhabited

namespace Datum

/-- A scalar. -/
@[match_pattern] def scalar (s : Scalar) : Datum := .atom (.scalar s)

/-- The absent datum. -/
def null : Datum := .scalar .null

/-- A text. -/
def text (t : Text) : Datum := .scalar (.text t)

/-- The members of a set as they are shown. -/
def setLiteral (members : List Atom) : String :=
  if members.isEmpty then "set()"
  else "\x7b" ++ ", ".intercalate (members.map Atom.literal) ++ "\x7d"

mutual

/-- The datum as it is shown inside of another one. -/
def literal : Datum → String
  | .atom a => a.literal
  | .list items => "[" ++ ", ".intercalate (literals items) ++ "]"
  | .pair first second => "(" ++ first.literal ++ ", " ++ second.literal ++ ")"
  | .set members => setLiteral members
  | .map entries => "\x7b" ++ ", ".intercalate (entryLiterals entries) ++ "\x7d"
  | .listAgain => "[...]"
  | .mapAgain => "\x7b...\x7d"

/-- The items of a list as they are shown. -/
def literals : List Datum → List String
  | [] => []
  | d :: rest => d.literal :: literals rest

/-- The entries of a mapping as they are shown. -/
def entryLiterals : List (Atom × Datum) → List String
  | [] => []
  | (key, d) :: rest => (key.literal ++ ": " ++ d.literal) :: entryLiterals rest

end

/-- The datum as it is shown on its own: a text stands without quotes. -/
def shown : Datum → Text
  | .atom a => a.shown
  | d => d.literal

/-- Goes to what is inside of a collection, if there is room. -/
def inside (room : Nat) (hindrance : Nat → Option Hindrance) : Option Hindrance :=
  match room with
  | 0 => some .tooDeep
  | room + 1 => hindrance room

/-- What keeps the members of a set from being shown. They are shown as the list of them. -/
def membersHindrance? (room : Nat) : List Atom → Option Hindrance
  | [] => none
  | a :: rest =>
    (inside room fun room => inside room fun room => a.literalHindrance? room).or
      (membersHindrance? room rest)

mutual

/-- What keeps the datum from being shown inside of another one, where `room` collections may be
around its parts: what is met first from left to right. -/
def literalHindrance? (room : Nat) : Datum → Option Hindrance
  | .atom a => a.literalHindrance? room
  | .list items => itemsHindrance? room items
  | .pair first second =>
    (inside room fun room => first.literalHindrance? room).or
      (inside room fun room => second.literalHindrance? room)
  | .set members => membersHindrance? room members
  | .map entries => entriesHindrance? room entries
  | .listAgain | .mapAgain => none

/-- What keeps the items of a list from being shown. -/
def itemsHindrance? (room : Nat) : List Datum → Option Hindrance
  | [] => none
  | d :: rest =>
    (inside room fun room => d.literalHindrance? room).or (itemsHindrance? room rest)

/-- What keeps the entries of a mapping from being shown. -/
def entriesHindrance? (room : Nat) : List (Atom × Datum) → Option Hindrance
  | [] => none
  | (key, d) :: rest =>
    ((inside room fun room => key.literalHindrance? room).or
      (inside room fun room => d.literalHindrance? room)).or (entriesHindrance? room rest)

end

/-- What keeps the datum from being shown on its own. -/
def hindrance? (room : Nat) : Datum → Option Hindrance
  | .atom a => a.hindrance?
  | d => d.literalHindrance? room

end Datum

namespace Value

mutual

/-- The value as a datum. -/
def toDatum : Value → Datum
  | .scalar s => .scalar s
  | .list items => .list (itemData items)
  | .map entries => .map (entryData entries)
  | .record entries => .map (entryData entries)

/-- The items of a list as data. -/
def itemData : List Value → List Datum
  | [] => []
  | v :: rest => v.toDatum :: itemData rest

/-- The entries of a mapping as data. -/
def entryData : List (Text × Value) → List (Atom × Datum)
  | [] => []
  | (name, v) :: rest => (.text name, v.toDatum) :: entryData rest

end

end Value

end UnderscoreLint
