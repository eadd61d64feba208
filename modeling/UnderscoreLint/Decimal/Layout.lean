import UnderscoreLint.Decimal.Shortest

/-!
# How a double is written

A double is written by its shortest decimal. Numbers of middling size are written
with a point in its place and at least one digit behind it (`0.0001`, `1500.0`);
very small and very large ones with one digit before the point and an exponent
(`1.5e-07`, `1e+16`). A `FloatFormat` says where the middle ends, how wide an
exponent is at least, and what the special values are called.

`fixed` writes a double with a set number of places instead, rounded exactly, a
half to the even neighbour.
-/

namespace UnderscoreLint.Decimal

/-- The decisions of a way to write doubles. -/
structure FloatFormat where
  /-- The lowest exponent written without an exponent part. -/
  positionalFrom : Int
  /-- The first exponent above that is written with an exponent part. -/
  positionalBelow : Int
  /-- The least number of digits of an exponent part. -/
  exponentWidth : Nat
  nan : String
  infinity : String

/-- Doubles in running text. -/
def FloatFormat.plain : FloatFormat :=
  { positionalFrom := -4, positionalBelow := 16, exponentWidth := 2
    nan := "nan", infinity := "inf" }

/-- Doubles in a JSON document. -/
def FloatFormat.json : FloatFormat :=
  { FloatFormat.plain with nan := "NaN", infinity := "Infinity" }

/-- `n` zeros. -/
def zeros (n : Nat) : List Char :=
  List.replicate n '0'

/-- Fills a numeral with zeros on the left up to `width` digits. -/
def padLeft (width : Nat) (cs : List Char) : List Char :=
  zeros (width - cs.length) ++ cs

/-- Drops the zeros at the end of a numeral. -/
def stripZeros (cs : List Char) : List Char :=
  (cs.reverse.dropWhile (· = '0')).reverse

/-- Writes digits with a point behind the digit of exponent zero; `lead` is the
exponent of the first digit. -/
def positional (ds : List Char) : (lead : Int) → List Char
  | .ofNat n =>
    let whole := ds.take (n + 1)
    let fraction := ds.drop (n + 1)
    whole ++ zeros (n + 1 - ds.length) ++ '.' :: (if fraction = [] then ['0'] else fraction)
  | .negSucc n => '0' :: '.' :: zeros n ++ ds

/-- Writes digits with a point behind the first one and an exponent part. -/
def withExponent (width : Nat) (ds : List Char) (lead : Int) : List Char :=
  let mantissa := match ds with
    | [] => []
    | [d] => [d]
    | d :: rest => d :: '.' :: rest
  let sign := if lead < 0 then '-' else '+'
  mantissa ++ 'e' :: sign :: padLeft width (digits lead.natAbs)

/-- A sign if there is one. -/
def signed (negative : Bool) (cs : List Char) : List Char :=
  if negative then '-' :: cs else cs

/-- Writes a double by its shortest decimal. -/
def FloatFormat.write (f : FloatFormat) (x : Float) : List Char :=
  match Binary.ofFloat x with
  | .nan => f.nan.toList
  | .infinite negative => signed negative f.infinity.toList
  | .finite negative 0 _ => signed negative ['0', '.', '0']
  | .finite negative mantissa exponent =>
    let d := shortest mantissa exponent
    let ds := digits d.coefficient
    let lead := d.exponent + ds.length - 1
    let body :=
      if f.positionalFrom ≤ lead ∧ lead < f.positionalBelow then positional (stripZeros ds) lead
      else withExponent f.exponentWidth (stripZeros ds) lead
    signed negative body

/-- Writes a double with `places` digits behind the point. -/
def fixed (places : Nat) (x : Float) : List Char :=
  match Binary.ofFloat x with
  | .nan => FloatFormat.plain.nan.toList
  | .infinite negative => signed negative FloatFormat.plain.infinity.toList
  | .finite negative mantissa exponent =>
    let scaled := ((Ratio.mk mantissa 1).scale 2 exponent).scale 10 places
    let ds := padLeft (places + 1) (digits scaled.roundHalfEven)
    let cut := ds.length - places
    signed negative (ds.take cut ++ '.' :: ds.drop cut)

/-- The text of a double in running text. -/
def floatText (x : Float) : String :=
  String.ofList (FloatFormat.plain.write x)

end UnderscoreLint.Decimal
