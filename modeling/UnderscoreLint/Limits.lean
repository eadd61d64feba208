/-!
# Limits

What is nested is worked on from the inside to the outside, and whatever waits for the parts inside
of it takes room. How much room there is depends on the machine and on what else is going on, so
the limits are no part of the formats; whoever reads or writes something nested is told them.
-/

namespace UnderscoreLint

/-- How far nesting may go. -/
structure Limits where
  /-- How many lists and objects of a JSON text may be open at once. -/
  json : Nat
  /-- How many collections of a YAML text may be open at once. -/
  yaml : Nat
  /-- How many mappings may wait for one another to be merged. -/
  merges : Nat
  /-- How many mappings may stand for a scalar, each as the default of the one before it. -/
  defaults : Nat
  /-- How many collections may be around a part of a document that is shown. -/
  shown : Nat
  deriving DecidableEq, Repr

/-- The limits of a machine that has room for a thousand calls. -/
def Limits.usual : Limits where
  json := 990
  yaml := 480
  merges := 960
  defaults := 960
  shown := 990

end UnderscoreLint
