import UnderscoreLint.Decimal.Binary

/-!
# The shortest decimal of a double

Every decimal between the two midpoints next to a double reads back as that
double; the midpoints themselves do so when the mantissa is even. `shortest` tries
one digit, two digits and so on up to seventeen, each time with the two neighbours
of the value on the grid of that many digits, and takes the first that lies within
the midpoints; of two such neighbours it takes the nearer.
-/

namespace UnderscoreLint.Decimal

/-- The decimal number `digits * 10 ^ exponent`. -/
structure Scientific where
  coefficient : Nat
  exponent : Int
  deriving DecidableEq, Repr

/-- The ratio a decimal number stands for. -/
def Scientific.ratio (d : Scientific) : Ratio :=
  (Ratio.mk d.coefficient 1).scale 10 d.exponent

/-- The stretch of numbers that read back as one double. -/
structure Neighbourhood where
  low : Ratio
  value : Ratio
  high : Ratio
  closed : Bool

/-- The neighbourhood of `mantissa * 2 ^ exponent`, in quarters of a unit of the
last place: half a unit up, and half a unit down, or a quarter where the numbers
below are twice as dense. -/
def Neighbourhood.of (mantissa : Nat) (exponent : Int) : Neighbourhood :=
  let quarters (n : Nat) := (Ratio.mk n 1).scale 2 (exponent - 2)
  let dense := mantissa = Binary.hiddenBit ∧ Binary.lowestExponent < exponent
  { low := quarters (4 * mantissa - if dense then 1 else 2)
    value := quarters (4 * mantissa)
    high := quarters (4 * mantissa + 2)
    closed := mantissa % 2 = 0 }

/-- Whether a decimal number reads back as the double of the neighbourhood. -/
def Neighbourhood.holds (n : Neighbourhood) (d : Scientific) : Bool :=
  if n.closed then n.low.le d.ratio && d.ratio.le n.high
  else n.low.lt d.ratio && d.ratio.lt n.high

/-- The best decimal on the grid `10 ^ step` that reads back, if there is one. -/
def Neighbourhood.nearestOnGrid (n : Neighbourhood) (step : Int) : Option Scientific :=
  let scaled := n.value.scale 10 (-step)
  let below : Scientific := ⟨scaled.floor, step⟩
  let above : Scientific := ⟨scaled.floor + 1, step⟩
  match n.holds below, n.holds above with
  | true, true => some ⟨scaled.roundHalfEven, step⟩
  | true, false => some below
  | false, true => some above
  | false, false => none

/-- The shortest decimal that reads back as the positive double
`mantissa * 2 ^ exponent`. Seventeen digits always suffice. -/
def shortest (mantissa : Nat) (exponent : Int) : Scientific :=
  let n := Neighbourhood.of mantissa exponent
  let lead := n.value.magnitude
  ((List.range 17).findSome? fun (i : Nat) => n.nearestOnGrid (lead - i)).getD ⟨0, 0⟩

end UnderscoreLint.Decimal
