import UnderscoreLint.Text.Lines
import UnderscoreLint.Text.Utf8
import UnderscoreLint.Yaml.Error

/-!
# The characters of a YAML file

A file is not taken in as a whole. Its characters come in pieces: two at the start, and then one
more whenever a character behind the last piece is asked for. A piece that holds a character
that YAML has no place for cannot be had, nor one whose characters are not all there before the
bytes stop being UTF-8. Everything in front of that piece can be had, and so an error in front
of it is found although the file is no text.

The bytes come in blocks. For a piece that is not complete, a block is read that should do: by
the bytes that the characters of the last block took on average, and a least size. Flawed bytes
spoil all of their block. A carriage return at the end of a block waits for the next one, which
may start with the line feed that goes with it.
-/

namespace UnderscoreLint.Yaml

/-- The number of characters in a piece. -/
def pieceSize : Nat := 4096

/-- The least number of bytes in a block. -/
def blockSize : Nat := 8192

/-- What can be read of a text: its first characters, and why there are no more of them, if the
text does not end there. -/
structure Supply where
  chars : List Char
  barrier : Option Error

/-- Whether a character may stand in a YAML text. -/
def isAllowed (c : Char) : Bool :=
  let n := c.toNat
  n == 0x9 || n == 0xa || n == 0xd || (0x20 ≤ n && n ≤ 0x7e) || n == 0x85 ||
    (0xa0 ≤ n && n ≤ 0xd7ff) || (0xe000 ≤ n && n ≤ 0xfffd) || 0x10000 ≤ n

/-- How many characters can be had if the one at `index` cannot: those of the pieces in front
of its own. The first two pieces are had together. -/
def reach (index : Nat) : Nat :=
  let count := pieceSize * (index / pieceSize)
  if count < 2 * pieceSize then 0 else count

/-- How many characters the first `count` bytes give, after line ends are unified. -/
def charsWithin (chars : List (Char × Nat)) (count : Nat) : Nat :=
  let cs := (chars.takeWhile fun c => decide (c.2 ≤ count)).map (·.1)
  let waiting := if cs.getLast? = some '\r' then 1 else 0
  (Text.unifyLineEnds cs).length - waiting

/-- The state of reading blocks. -/
structure Blocks where
  /-- How many bytes are read. -/
  bytes : Nat := 0
  /-- How many characters they gave. -/
  chars : Nat := 0
  /-- How many characters the pieces up to the present one hold. -/
  wanted : Nat := pieceSize
  /-- How many bytes and how many characters the last block had. -/
  lastBytes : Nat := 0
  lastChars : Nat := 0

/-- The size of the next block. -/
def Blocks.size (b : Blocks) : Nat :=
  let missing := b.wanted - b.chars
  let needed :=
    if b.lastChars = 0 then missing
    else missing * max b.lastBytes b.lastChars / b.lastChars
  max blockSize needed

/-- How many characters the blocks give that come before the one with the flaw. In bytes that
end too early the flaw is found by trying to read on behind the last block. -/
def Blocks.sound (chars : List (Char × Nat)) (flaw total : Nat) : Nat → Blocks → Nat
  | 0, b => b.chars
  | fuel + 1, b =>
    if b.wanted ≤ b.chars then
      sound chars flaw total fuel { b with wanted := b.wanted + pieceSize }
    else
      let bytes := min (b.bytes + b.size) total
      if b.bytes = total ∨ flaw < bytes then b.chars
      else
        let count := charsWithin chars bytes
        sound chars flaw total fuel
          ⟨bytes, count, b.wanted, bytes - b.bytes, count - b.chars⟩

/-- What can be read of a file. -/
def supply (content : ByteArray) : Supply :=
  let r := Text.Utf8.read content.toList
  let cs := Text.unifyLineEnds (r.chars.map (·.1))
  let decoded := r.flaw.map fun flaw =>
    reach (Blocks.sound r.chars flaw content.size (2 * content.size + 2) {})
  let allowed := (cs.findIdx? fun c => !isAllowed c).map reach
  match decoded, allowed with
  | none, none => ⟨cs, none⟩
  | some n, none => ⟨cs.take n, some .undecodable⟩
  | none, some m => ⟨cs.take m, some .malformed⟩
  | some n, some m =>
    if n ≤ m then ⟨cs.take n, some .undecodable⟩ else ⟨cs.take m, some .malformed⟩

end UnderscoreLint.Yaml
