import UnderscoreLint.Text

/-!
# Surrogate pairs

A character beyond the first 65536 is written as two code units of sixteen bits, a high
one and a low one. `split` gives the units of a character and `join` puts units together
again: a high unit followed by a low one is one character, and a unit that stands alone
where a pair should be is half of one.
-/

namespace UnderscoreLint.Text.Surrogate

/-- Whether a unit is the first of a pair. -/
def isHigh (u : Nat) : Bool :=
  0xd800 ≤ u && u < 0xdc00

/-- Whether a unit is the second of a pair. -/
def isLow (u : Nat) : Bool :=
  0xdc00 ≤ u && u < 0xe000

/-- The code units of a character. -/
def split (c : Char) : List Nat :=
  let n := c.toNat
  if n < 0x10000 then [n]
  else [0xd800 + (n - 0x10000) / 0x400, 0xdc00 + (n - 0x10000) % 0x400]

/-- The character of a pair. -/
def pair (high low : Nat) : Char :=
  Char.ofNat (0x10000 + (high - 0xd800) * 0x400 + (low - 0xdc00))

/-- The letters of a run of units. -/
def join : List Nat → List Letter
  | [] => []
  | [u] => [.ofCode u]
  | u :: v :: rest =>
    if isHigh u && isLow v then .char (pair u v) :: join rest else .ofCode u :: join (v :: rest)

end UnderscoreLint.Text.Surrogate
