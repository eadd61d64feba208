import UnderscoreLint.Decimal.Digits

/-!
# Binary numbers

A double is a sign and a whole number times a power of two, or one of the special
values. `Binary.ofFloat` takes a double apart; everything printed about a double
is computed from the parts in exact integer arithmetic.

`readDecimal` goes the other way: it gives the double nearest to a whole number
times a power of ten. Exponents that lie far outside of the range of doubles are
settled first, so that no huge power is ever built.
-/

namespace UnderscoreLint.Decimal

/-- The parts of a double. A finite one is `mantissa * 2 ^ exponent` behind its sign. -/
inductive Binary where
  | nan
  | infinite (negative : Bool)
  | finite (negative : Bool) (mantissa : Nat) (exponent : Int)
  deriving DecidableEq, Repr

/-- The lowest power of two that a double counts in. -/
def Binary.lowestExponent : Int := -1074

/-- The mantissa from which on the numbers of one exponent are dense: `2 ^ 52`. -/
def Binary.hiddenBit : Nat := 4503599627370496

/-- The bit pattern from which on doubles are negative: `2 ^ 63`. -/
def Binary.signBit : Nat := 9223372036854775808

/-- Takes a double apart. -/
def Binary.ofFloat (x : Float) : Binary :=
  let bits := x.toBits.toNat
  let negative := decide (signBit ≤ bits)
  let field := bits / hiddenBit % 2048
  let fraction := bits % hiddenBit
  if field = 2047 then if fraction = 0 then .infinite negative else .nan
  else if field = 0 then .finite negative fraction lowestExponent
  else .finite negative (fraction + hiddenBit) (field - 1075)

/-- A fraction of whole numbers; the denominator is meant to be positive. -/
structure Ratio where
  num : Nat
  den : Nat
  deriving DecidableEq, Repr

/-- The ratio times a power of `base`. -/
def Ratio.scale (r : Ratio) (base : Nat) : Int → Ratio
  | .ofNat k => ⟨r.num * base.pow k, r.den⟩
  | .negSucc k => ⟨r.num, r.den * base.pow (k + 1)⟩

/-- Whether `r ≤ s`, for positive denominators. -/
def Ratio.le (r s : Ratio) : Bool :=
  decide (r.num * s.den ≤ s.num * r.den)

/-- Whether `r < s`, for positive denominators. -/
def Ratio.lt (r s : Ratio) : Bool :=
  decide (r.num * s.den < s.num * r.den)

/-- The whole part. -/
def Ratio.floor (r : Ratio) : Nat :=
  r.num / r.den

/-- The nearest whole number; of two equally near ones the even one. -/
def Ratio.roundHalfEven (r : Ratio) : Nat :=
  let q := r.num / r.den
  let twice := 2 * (r.num % r.den)
  if twice < r.den then q
  else if r.den < twice then q + 1
  else if q % 2 = 0 then q else q + 1

/-- The decimal exponent of the leading digit of a positive ratio: the `k` with
`10 ^ k ≤ r < 10 ^ (k + 1)`. Below one it is found from the reciprocal, rounded up. -/
def Ratio.magnitude (r : Ratio) : Int :=
  if r.den ≤ r.num then (digits r.floor).length - 1
  else Int.neg (digits ((r.den + r.num - 1) / r.num - 1)).length

/-- The double nearest to `mantissa * 10 ^ exponent`, behind the sign. -/
def readDecimal (negative : Bool) (mantissa : Nat) (exponent : Int) : Float :=
  let size := (digits mantissa).length + exponent
  let magnitude :=
    if mantissa = 0 then 0.0
    else if 400 < size then 1.0 / 0.0
    else if size < -400 then 0.0
    else Float.ofScientific mantissa (decide (exponent < 0)) exponent.natAbs
  if negative then -magnitude else magnitude

end UnderscoreLint.Decimal
