/-!
# Intervals of characters

Properties of characters are tables of closed intervals of code points, in increasing
order.
-/

namespace UnderscoreLint.Text

/-- A closed interval of code points. -/
abbrev Interval := Nat × Nat

/-- Whether `n` lies in the interval. -/
def Interval.holds (i : Interval) (n : Nat) : Bool :=
  decide (i.1 ≤ n) && decide (n ≤ i.2)

end UnderscoreLint.Text
