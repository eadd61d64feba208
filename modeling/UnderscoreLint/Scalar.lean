import UnderscoreLint.Text.Quoted
import UnderscoreLint.Decimal.Layout

/-!
# Scalars

The values without parts that syntax trees and configuration documents are made
of. Two scalars of different kinds can be the same number: `true` is one, `false`
is zero, and a whole double equals the integer of its value. `Scalar.same` is that
comparison; it decides which keys of a configuration document coincide.

A scalar is shown in messages in two ways. `Scalar.shown` writes a text as it is;
`Scalar.literal` puts it in quotes.
-/

namespace UnderscoreLint

/-- A value without parts. -/
inductive Scalar where
  | null
  | bool (b : Bool)
  | int (n : Int)
  | float (x : Float)
  | text (t : Text)
  deriving Inhabited

namespace Scalar

/-- Whether the double `x` is exactly the integer `n`. -/
def floatIsInt (x : Float) (n : Int) : Bool :=
  match Decimal.Binary.ofFloat x with
  | .finite negative mantissa exponent =>
    let r := (Decimal.Ratio.mk mantissa 1).scale 2 exponent
    let magnitude : Int := r.num
    decide ((if negative then -magnitude else magnitude) = n * r.den)
  | _ => false

/-- The integer that a boolean stands for. -/
def ofBool (b : Bool) : Int :=
  if b then 1 else 0

/-- Whether two scalars are equal as keys: texts with texts, and numbers by their
value across booleans, integers and doubles. A NaN is equal to nothing. -/
def same : Scalar → Scalar → Bool
  | .null, .null => true
  | .text s, .text t => s == t
  | .bool b, .bool c => b == c
  | .bool b, .int n | .int n, .bool b => ofBool b == n
  | .int m, .int n => m == n
  | .bool b, .float x | .float x, .bool b => floatIsInt x (ofBool b)
  | .int n, .float x | .float x, .int n => floatIsInt x n
  | .float x, .float y => x == y
  | _, _ => false

/-- How a boolean is shown. -/
def boolText (b : Bool) : String :=
  if b then "True" else "False"

/-- The scalar as it is shown inside of a list or a mapping. -/
def literal : Scalar → String
  | .null => "None"
  | .bool b => boolText b
  | .int n => Decimal.intText n
  | .float x => Decimal.floatText x
  | .text t => Text.quoted t

/-- The scalar as it is shown on its own. -/
def shown : Scalar → Text
  | .text t => t
  | s => s.literal

end Scalar

end UnderscoreLint
