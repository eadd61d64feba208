/-!
# UTF-8, as far as it goes

Bytes need not be a text, and then it matters how far they are one. A character is a first byte,
which tells the number of bytes, and the others, of which the second has a narrower range behind
some first bytes. `Utf8.read` gives the characters in front of the first byte that cannot be
there, each with the place where it ends, and the place of that byte. Where the bytes end inside
of a character, that place is the end.
-/

namespace UnderscoreLint.Text.Utf8

/-- How many bytes a character has that starts with `b`. -/
def size? (b : UInt8) : Option Nat :=
  if b < 0x80 then some 1
  else if b < 0xc2 then none
  else if b < 0xe0 then some 2
  else if b < 0xf0 then some 3
  else if b < 0xf5 then some 4
  else none

/-- Whether `b` can be the second byte of a character that starts with `first`. -/
def isSecond (first b : UInt8) : Bool :=
  let low := if first = 0xe0 then 0xa0 else if first = 0xf0 then 0x90 else 0x80
  let high := if first = 0xed then 0x9f else if first = 0xf4 then 0x8f else 0xbf
  low ≤ b && b ≤ high

/-- Whether `b` can be the third or fourth byte of a character. -/
def isFurther (b : UInt8) : Bool :=
  0x80 ≤ b && b ≤ 0xbf

/-- The bytes behind `first` that can belong to its character, of which there are at most
`count`. The code of half a surrogate pair is known for what it is only at its third byte. -/
def continuation (first : UInt8) (count : Nat) (bs : List UInt8) : List UInt8 :=
  match bs.take count with
  | [] => []
  | b :: rest =>
    if isSecond first b then b :: rest.takeWhile isFurther
    else if first = 0xed ∧ isFurther b then [b]
    else []

/-- The character of a first byte and the others: the low bits of each, put together. -/
def char (first : UInt8) (others : List UInt8) : Char :=
  let bits := if others = [] then first.toNat else first.toNat % Nat.pow 2 (6 - others.length)
  Char.ofNat (others.foldl (fun n b => 64 * n + b.toNat % 64) bits)

/-- What bytes read as. -/
structure Reading where
  /-- The characters, each with the number of bytes up to its end. -/
  chars : List (Char × Nat)
  /-- The place of the first byte that cannot be there, if there is one. -/
  flaw : Option Nat

/-- Reads bytes of which the first is at the place `start`. -/
def readFrom (start : Nat) : List UInt8 → Reading
  | [] => ⟨[], none⟩
  | b :: rest =>
    match size? b with
    | none => ⟨[], some start⟩
    | some size =>
      let others := continuation b (size - 1) rest
      if others.length < size - 1 then ⟨[], some (start + 1 + others.length)⟩
      else
        let r := readFrom (start + size) (rest.drop (size - 1))
        ⟨(char b others, start + size) :: r.chars, r.flaw⟩
termination_by bs => bs.length
decreasing_by
  all_goals simp only [List.length_cons, List.length_drop]
  all_goals omega

/-- Reads bytes. -/
def read (bs : List UInt8) : Reading :=
  readFrom 0 bs

end UnderscoreLint.Text.Utf8
