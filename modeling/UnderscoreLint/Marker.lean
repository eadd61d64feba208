import UnderscoreLint.Value

/-!
# The underscore marker

The conventions are all about one character at one of the two ends of a name. A name
can carry the marker at its start, at its end, at both or at neither; the name `_` alone
carries it at both. Only texts carry markers.
-/

namespace UnderscoreLint.Marker

/-- The character that marks a name. -/
def mark : Letter := .char '_'

/-- Whether a name starts with the marker. -/
def leads (name : Text) : Bool :=
  name.letters.head? == some mark

/-- Whether a name ends with the marker. -/
def trails (name : Text) : Bool :=
  name.letters.getLast? == some mark

/-- Whether a value is a text that starts with the marker. -/
def leadsValue (v : Value) : Bool :=
  v.text?.any leads

/-- Whether a value is a text that ends with the marker. -/
def trailsValue (v : Value) : Bool :=
  v.text?.any trails

end UnderscoreLint.Marker
