import UnderscoreLint.Datum

/-!
# Documents at first sight

Where a document shares its parts, the whole of it can be very long, although it is a short
text. What a part is can be seen without writing it out: an atom, a list, a set or a mapping,
and under which keys a mapping has which parts. `Outline` is what can be seen. Whoever goes
through a document goes by outlines, and writes out only what has to be told.

A datum is a document that is written out already.
-/

namespace UnderscoreLint

/-- A part of a document at first sight, whose own parts are of type `α`. -/
inductive Outline (α : Type) where
  | atom (a : Atom)
  /-- A list of any kind. -/
  | list
  | set (members : List Atom)
  | map (entries : List (Atom × α))

/-- Documents that can be looked at before they are written out. -/
class Outlined (α : Type) where
  /-- A part at first sight. -/
  outline : α → Outline α
  /-- A part written out. -/
  datum : α → Datum

export Outlined (outline)

/-- The part under a key that is a text. -/
def Outline.lookup {α : Type} (name : Text) (entries : List (Atom × α)) : Option α :=
  (entries.find? fun e => e.1.same (.text name)).map (·.2)

/-- A datum at first sight. Marks stand for lists and mappings that nobody looks into. -/
def Datum.outline : Datum → Outline Datum
  | .atom a => .atom a
  | .list _ | .pair _ _ | .listAgain | .mapAgain => .list
  | .set members => .set members
  | .map entries => .map entries

instance : Outlined Datum where
  outline := Datum.outline
  datum := id

end UnderscoreLint
