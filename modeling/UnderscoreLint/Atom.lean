import UnderscoreLint.Calendar
import UnderscoreLint.Scalar

/-!
# Atoms

The parts of a configuration document that have no parts themselves, and that can be the keys
of a mapping: scalars, and what only documents can hold, which is bytes, dates and times.

A run of bytes is shown in quotes behind the letter `b`. Bytes that are printable characters
of ASCII stand for themselves; the rest follows the rules for texts in quotes, with every code
in two hexadecimal digits.
-/

namespace UnderscoreLint

namespace Text

/-- One byte of a run quoted by `quote`. -/
def quoteByte (quote : Char) (b : UInt8) : List Char :=
  if b < 0x80 then quoteChar quote (Char.ofNat b.toNat) else escapeCode b.toNat

/-- The bytes in quotes. -/
def quotedBytes (bytes : List UInt8) : String :=
  let quote := chooseQuote (bytes.map fun b => Char.ofNat b.toNat)
  String.ofList ('b' :: quote :: bytes.flatMap (quoteByte quote) ++ [quote])

end Text

/-- A part of a document without parts of its own. -/
inductive Atom where
  | scalar (s : Scalar)
  | bytes (data : List UInt8)
  | date (d : Date)
  | time (t : DateTime)
  deriving Inhabited

/-- Why something cannot be shown. -/
inductive Hindrance where
  /-- Too much is around a part of it. -/
  | tooDeep
  /-- An integer is too long to be written. -/
  | longInteger
  deriving DecidableEq, Repr

namespace Atom

/-- A text. -/
def text (t : Text) : Atom := .scalar (.text t)

/-- Whether two atoms are equal as keys. Atoms of different kinds never are. -/
def same : Atom → Atom → Bool
  | .scalar s, .scalar t => s.same t
  | .bytes a, .bytes b => a == b
  | .date d, .date e => d == e
  | .time t, .time u => t.same u
  | _, _ => false

/-- The atom as it is shown on its own. -/
def shown : Atom → Text
  | .scalar s => s.shown
  | .bytes data => Text.quotedBytes data
  | .date d => d.shown
  | .time t => t.shown

/-- The atom as it is shown inside of a list or a mapping. -/
def literal : Atom → String
  | .scalar s => s.literal
  | .bytes data => Text.quotedBytes data
  | .date d => d.literal
  | .time t => t.literal

/-- Whether the atom is an integer that is too long to be written. -/
def isLong : Atom → Bool
  | .scalar (.int n) => !Decimal.isWritable n
  | _ => false

/-- How many things are shown inside of the atom where it is part of something else. -/
def depth : Atom → Nat
  | .time t => t.zoneDepth
  | _ => 0

/-- What keeps the atom from being shown on its own. -/
def hindrance? (a : Atom) : Option Hindrance :=
  if a.isLong then some .longInteger else none

/-- What keeps the atom from being shown inside of a list or a mapping. -/
def literalHindrance? (room : Nat) (a : Atom) : Option Hindrance :=
  if room < a.depth then some .tooDeep else a.hindrance?

end Atom

end UnderscoreLint
