import UnderscoreLint.Text

/-!
# Lines

Texts come with line ends in three spellings: a line feed, a carriage return, or
the two together. `unifyLineEnds` makes every one of them a single line feed, so
that the rest of the library meets one spelling only.

A place in such a text is given twice: by the number of characters before it, and
by the line and column a reader would count. `Position.of` computes the second
from the first.
-/

namespace UnderscoreLint.Text

/-- Writes every line end as one line feed. -/
def unifyLineEnds : List Char → List Char
  | [] => []
  | '\r' :: '\n' :: rest => '\n' :: unifyLineEnds rest
  | c :: rest => (if c = '\r' then '\n' else c) :: unifyLineEnds rest

/-- A place in a text: the line counted from one, the column counted from one,
and the number of characters before it. -/
structure Position where
  line : Nat
  column : Nat
  offset : Nat
  deriving DecidableEq, Repr

/-- The place `offset` characters into `text`. The column counts from the last
line feed before the place. -/
def Position.of (text : List Char) (offset : Nat) : Position :=
  let before := text.take offset
  { line := before.count '\n' + 1
    column := (before.reverse.takeWhile (· ≠ '\n')).length + 1
    offset := offset }

/-- Joins lines with a line feed between two of them. -/
def joinLines (lines : List Text) : Text :=
  intercalate "\n" lines

end UnderscoreLint.Text
