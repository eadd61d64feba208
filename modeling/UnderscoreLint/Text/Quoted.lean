import UnderscoreLint.Text
import UnderscoreLint.Text.Unprintable

/-!
# Quoted text

A text shown inside a message stands in quotes, so that its ends and its
unprintable characters can be seen. The quote is `'`, unless the text has a `'`
and no `"`. A backslash and the quote in use are escaped by a backslash; line
feed, carriage return and tab have a letter each; any other unprintable character,
and any half of a pair, is written by its code in lower-case hexadecimal, with two,
four or eight digits.
-/

namespace UnderscoreLint.Text

/-- The hexadecimal digit of `d`, for `d` below sixteen. -/
def hexDigit (d : Nat) : Char :=
  if d < 10 then Char.ofNat ('0'.toNat + d) else Char.ofNat ('a'.toNat + (d - 10))

/-- The last `width` hexadecimal digits of `n`. -/
def hexDigits : (width : Nat) → (n : Nat) → List Char
  | 0, _ => []
  | width + 1, n => hexDigits width (n / 16) ++ [hexDigit (n % 16)]

/-- The code `n` behind a backslash and a letter that tells how many digits follow. -/
def escapeCode (n : Nat) : List Char :=
  if n < 0x100 then '\\' :: 'x' :: hexDigits 2 n
  else if n < 0x10000 then '\\' :: 'u' :: hexDigits 4 n
  else '\\' :: 'U' :: hexDigits 8 n

/-- One character of a text quoted by `quote`. -/
def quoteChar (quote : Char) (c : Char) : List Char :=
  if c = '\\' ∨ c = quote then ['\\', c]
  else if c = '\n' then ['\\', 'n']
  else if c = '\r' then ['\\', 'r']
  else if c = '\t' then ['\\', 't']
  else if isUnprintable c then escapeCode c.toNat
  else [c]

/-- One letter of a text quoted by `quote`. -/
def quoteLetter (quote : Char) : Letter → List Char
  | .char c => quoteChar quote c
  | .half i => escapeCode (Letter.half i).code

/-- The quote that suits a text: double only if the text has a single one and no
double one. -/
def chooseQuote (cs : List Char) : Char :=
  if '\'' ∈ cs ∧ '"' ∉ cs then '"' else '\''

/-- The text in quotes. -/
def quoted (t : Text) : String :=
  let quote := chooseQuote (t.letters.filterMap Letter.char?)
  String.ofList (quote :: t.letters.flatMap (quoteLetter quote) ++ [quote])

end UnderscoreLint.Text
