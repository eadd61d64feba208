/-!
# Base 64

Bytes written with sixty-four characters, four for each three bytes. What is not one of these
characters is passed over. An equals sign fills up a group that has two or three characters,
and when the group is full by such signs the bytes end there, whatever follows. Elsewhere an
equals sign is passed over too. A group that is left unfinished is an error.
-/

namespace UnderscoreLint.Base64

/-- The six bits that a character stands for. -/
def value? (c : Char) : Option Nat :=
  if 'A' ≤ c ∧ c ≤ 'Z' then some (c.toNat - 'A'.toNat)
  else if 'a' ≤ c ∧ c ≤ 'z' then some (c.toNat - 'a'.toNat + 26)
  else if '0' ≤ c ∧ c ≤ '9' then some (c.toNat - '0'.toNat + 52)
  else if c = '+' then some 62
  else if c = '/' then some 63
  else none

/-- The whole bytes of a group of up to four times six bits. -/
def groupBytes : List Nat → List UInt8
  | [a, b] => [(4 * a + b / 16).toUInt8]
  | [a, b, c] => [(4 * a + b / 16).toUInt8, (16 * (b % 16) + c / 4).toUInt8]
  | [a, b, c, d] =>
    [(4 * a + b / 16).toUInt8, (16 * (b % 16) + c / 4).toUInt8, (64 * (c % 4) + d).toUInt8]
  | _ => []

/-- Reads bytes from inside of a group. `signs` counts the equals signs since the last
character of the group. -/
def decodeFrom : (group : List Nat) → (signs : Nat) → List Char → Option (List UInt8)
  | group, _, [] => if group = [] then some [] else none
  | group, signs, c :: cs =>
    if c = '=' then
      if group.length < 2 then decodeFrom group signs cs
      else if 4 ≤ group.length + (signs + 1) then some (groupBytes group)
      else decodeFrom group (signs + 1) cs
    else
      match value? c with
      | none => decodeFrom group signs cs
      | some v =>
        if group.length = 3 then
          (decodeFrom [] 0 cs).map (groupBytes (group ++ [v]) ++ ·)
        else decodeFrom (group ++ [v]) 0 cs

/-- The bytes of a text. -/
def decode? (cs : List Char) : Option (List UInt8) :=
  decodeFrom [] 0 cs

end UnderscoreLint.Base64
