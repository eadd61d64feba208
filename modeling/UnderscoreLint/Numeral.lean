import UnderscoreLint.Json.Reader
import UnderscoreLint.Text.Blank

/-!
# Numerals in free form

Numbers as people write them: between blanks, behind a sign, with the digits of any script.
`integer?` reads a whole number in a base, which may be announced in front of the digits, and
`double?` reads a double, which may be one of the special values by its name.

Every script that writes numbers in the decimal system has ten digits with consecutive code
points, from zero to nine (Unicode 14.0, general category `Nd`). A table holds the zeros.
-/

namespace UnderscoreLint.Numeral

/-- The code points of the digit zero in all scripts, in increasing order. -/
def zeroDigits : List Nat := [
  0x0030, 0x0660, 0x06f0, 0x07c0, 0x0966, 0x09e6, 0x0a66, 0x0ae6, 0x0b66, 0x0be6, 0x0c66,
  0x0ce6, 0x0d66, 0x0de6, 0x0e50, 0x0ed0, 0x0f20, 0x1040, 0x1090, 0x17e0, 0x1810, 0x1946,
  0x19d0, 0x1a80, 0x1a90, 0x1b50, 0x1bb0, 0x1c40, 0x1c50, 0xa620, 0xa8d0, 0xa900, 0xa9d0,
  0xa9f0, 0xaa50, 0xabf0, 0xff10, 0x104a0, 0x10d30, 0x11066, 0x110f0, 0x11136, 0x111d0, 0x112f0,
  0x11450, 0x114d0, 0x11650, 0x116c0, 0x11730, 0x118e0, 0x11950, 0x11c50, 0x11d50, 0x11da0,
  0x16a60, 0x16ac0, 0x16b50, 0x1d7ce, 0x1d7d8, 0x1d7e2, 0x1d7ec, 0x1d7f6, 0x1e140, 0x1e2f0,
  0x1e950, 0x1fbf0]

/-- The number that a digit of some script stands for. -/
def decimalDigit? (c : Char) : Option Nat :=
  (zeroDigits.find? fun z => decide (z ≤ c.toNat) && decide (c.toNat < z + 10)).map (c.toNat - ·)

/-- A digit of any script as one of the ten usual ones, and a blank beyond ASCII as a space. -/
def usualChar (c : Char) : Char :=
  if c.toNat < 0x7f then c
  else if Text.isBlankChar c then ' '
  else ((decimalDigit? c).map Decimal.digitChar).getD c

/-- Whether `c` may stand around a numeral. -/
def isMargin (c : Char) : Bool :=
  c == ' ' || (0x09 ≤ c.toNat && c.toNat ≤ 0x0d)

/-- The text in usual characters, without the blanks around it. -/
def trimmed (cs : List Char) : List Char :=
  (((cs.map usualChar).dropWhile isMargin).reverse.dropWhile isMargin).reverse

/-- Cuts off a sign, and tells whether it is a minus. -/
def splitSign : List Char → Bool × List Char
  | '-' :: rest => (true, rest)
  | '+' :: rest => (false, rest)
  | cs => (false, cs)

/-- The letter that announces a base behind a zero. -/
def baseLetter? : (base : Nat) → Option Char
  | 2 => some 'b'
  | 8 => some 'o'
  | 16 => some 'x'
  | _ => none

/-- Cuts off the announcement of a base. -/
def dropBase (base : Nat) : List Char → List Char
  | '0' :: letter :: rest =>
    if some letter.toLower = baseLetter? base then rest else '0' :: letter :: rest
  | cs => cs

/-- The number of a run of digits in a base. Decimal numbers have a greatest length. -/
def digits? (base : Nat) (cs : List Char) : Option Nat :=
  if cs.isEmpty || (base == 10 && decide (Decimal.longest < cs.length)) then none
  else cs.foldl (fun n c => match n, Json.hexValue? c with
    | some n, some d => if d < base then some (base * n + d) else none
    | _, _ => none) (some 0)

/-- Reads a whole number. -/
def integer? (base : Nat) (cs : List Char) : Option Int :=
  let (negative, unsigned) := splitSign (trimmed cs)
  (digits? base (dropBase base unsigned)).map fun n => if negative then -(n : Int) else n

/-- Reads a decimal without sign, with or without point and exponent. -/
def decimal? (cs : List Char) : Option Float :=
  let (whole, rest) := cs.span Decimal.isDigit
  let (fraction, rest) := match rest with
    | '.' :: rest => rest.span Decimal.isDigit
    | rest => ([], rest)
  let (exponent, rest) := Json.takeExponent rest
  if (whole.isEmpty && fraction.isEmpty) || !rest.isEmpty then none
  else
    some (Decimal.readDecimal false (Decimal.ofDigits (whole ++ fraction))
      (exponent.getD 0 - fraction.length))

/-- The special value of that name. -/
def special? (name : String) : Option Float :=
  match name with
  | "inf" | "infinity" => some (1.0 / 0.0)
  | "nan" => some (0.0 / 0.0)
  | _ => none

/-- Reads a double. -/
def double? (cs : List Char) : Option Float :=
  let (negative, unsigned) := splitSign (trimmed cs)
  let magnitude := special? (String.ofList (unsigned.map Char.toLower)) <|> decimal? unsigned
  magnitude.map fun x => if negative then -x else x

end UnderscoreLint.Numeral
