import UnderscoreLint.Atom

/-!
# The order of a set

A set shows its members in an order of its own. Each number has a code, which is the number
itself if it is whole and not too large. The members are put into a table one after the other,
each into the slot of its code, or behind it if that slot is taken, and are shown slot by slot.
Members that are no numbers have no code, and a set with one of them shows all as they came.
-/

namespace UnderscoreLint.Yaml

/-- What codes are less than, which is `2 ^ 61 - 1`: counting round to it, sixty-one doublings
change nothing. -/
def codeBound : Nat := 2305843009213693951

/-- The code of `mantissa * 2 ^ exponent`. Halving is doubling sixty times. -/
def magnitudeCode (mantissa : Nat) (exponent : Int) : Nat :=
  mantissa * Nat.pow 2 (exponent % 61).toNat % codeBound

/-- The code of an infinite number. -/
def infiniteCode : Nat := 314159

/-- The code with its sign. No code is minus one. -/
def signedCode (negative : Bool) (code : Nat) : Int :=
  if negative then if code = 1 then -2 else -code else code

/-- The code of a number. -/
def code? : Atom → Option Int
  | .scalar (.bool b) => some (Scalar.ofBool b)
  | .scalar (.int n) => some (signedCode (decide (n < 0)) (n.natAbs % codeBound))
  | .scalar (.float x) =>
    match Decimal.Binary.ofFloat x with
    | .finite negative mantissa exponent =>
      some (signedCode negative (magnitudeCode mantissa exponent))
    | .infinite negative => some (signedCode negative infiniteCode)
    | .nan => none
  | _ => none

/-- The members of a set in their slots. -/
abbrev Slots := Array (Option Atom)

namespace Slots

/-- The first free slot among `count` from `slot` on. -/
def free? (t : Slots) (slot count : Nat) : Option Nat :=
  (List.range' slot count).find? fun i => (t.getD i none).isNone

/-- Puts a member into the first free slot on its way: ten slots in a row where there are so
many, and then on elsewhere. Where the way leads depends on `drift`, which fades. -/
def put (a : Atom) : Nat → (slot drift : Nat) → Slots → Slots
  | 0, _, _, t => t
  | fuel + 1, slot, drift, t =>
    match t.free? slot (if slot + 10 ≤ t.size then 10 else 1) with
    | some i => t.setIfInBounds i (some a)
    | none => put a fuel ((5 * slot + 1 + drift / 32) % t.size) (drift / 32) t

/-- Puts a member with its code into the table. A drift of sixty-four bits is gone after
thirteen turns, and after that the way leads through all slots. -/
def insert (t : Slots) (code : Int) (a : Atom) : Slots :=
  t.put a (t.size + 13) (code % t.size).toNat (code % Nat.pow 2 64).toNat

end Slots

/-- How many slots a set of `count` members has. -/
def slotCount (count : Nat) : Nat :=
  if count < 5 then 8 else Nat.nextPowerOfTwo (2 * count + 1)

/-- The members of a set in the order in which they are shown. -/
def memberOrder (members : List Atom) : List Atom :=
  match members.mapM fun a => (code? a).map (·, a) with
  | none => members
  | some coded =>
    let empty : Slots := Array.replicate (slotCount members.length) none
    (coded.foldl (fun t (code, a) => t.insert code a) empty).toList.filterMap id

end UnderscoreLint.Yaml
