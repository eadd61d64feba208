import UnderscoreLint.Atom
import UnderscoreLint.Yaml.Error

/-!
# Timestamps

A timestamp is a date with dashes, and behind a `T` or blanks perhaps a time with colons, a
fraction of a second, and the distance from universal time. `timestamp?` reads the parts as
they are written; `Timestamp.atom` gives the date or time, if there is such a one.
-/

namespace UnderscoreLint.Yaml

/-- What stands behind the date of a timestamp. -/
structure TimeOfDay where
  hour : Nat
  minute : Nat
  second : Nat
  /-- The digits of the fraction of a second. -/
  fraction : List Char
  /-- By how many minutes the time is ahead of universal time, if it tells. -/
  offset : Option Int
  deriving DecidableEq, Repr

/-- A timestamp as it is written. -/
structure Timestamp where
  date : Date
  time : Option TimeOfDay
  deriving DecidableEq, Repr

namespace Timestamp

/-- Takes a number of `least` to `most` digits, as many as there are. -/
def number? (least most : Nat) (cs : List Char) : Option (Nat × List Char) :=
  let ds := (cs.take most).takeWhile Decimal.isDigit
  if ds.length < least then none else some (Decimal.ofDigits ds, cs.drop ds.length)

/-- Passes one of two characters. -/
def pass? (c d : Char) : List Char → Option (List Char)
  | x :: rest => if x = c ∨ x = d then some rest else none
  | [] => none

/-- Whether `c` may stand between the parts of a timestamp. -/
def isBlank (c : Char) : Bool :=
  c == ' ' || c == '\t'

/-- Takes the distance from universal time behind its sign, in minutes. -/
def distance? (cs : List Char) : Option (Nat × List Char) := do
  let (hours, cs) ← number? 1 2 cs
  match cs with
  | ':' :: cs =>
    let (minutes, cs) ← number? 2 2 cs
    return (60 * hours + minutes, cs)
  | cs => return (60 * hours, cs)

/-- Takes the distance from universal time, which is the last part of a timestamp. -/
def offset? (cs : List Char) : Option (Option Int) :=
  if cs.isEmpty then some none
  else
    match cs.dropWhile isBlank with
    | ['Z'] => some (some 0)
    | '+' :: cs => (distance? cs).bind fun (m, rest) => if rest.isEmpty then some (some m) else none
    | '-' :: cs =>
      (distance? cs).bind fun (m, rest) => if rest.isEmpty then some (some (-(m : Int))) else none
    | _ => none

/-- Takes the time of the day and what belongs to it. -/
def timeOfDay? (cs : List Char) : Option TimeOfDay := do
  let (hour, cs) ← number? 1 2 cs
  let (minute, cs) ← (pass? ':' ':' cs).bind (number? 2 2)
  let (second, cs) ← (pass? ':' ':' cs).bind (number? 2 2)
  let (fraction, cs) := match cs with
    | '.' :: cs => cs.span Decimal.isDigit
    | cs => ([], cs)
  let offset ← offset? cs
  return { hour, minute, second, fraction, offset }

/-- What stands behind a date: nothing, or a time behind a letter or blanks. -/
def rest? (cs : List Char) : Option (Option TimeOfDay) :=
  if cs.isEmpty then some none
  else
    let afterBlanks := cs.dropWhile isBlank
    let time := if afterBlanks.length < cs.length then some afterBlanks else pass? 'T' 't' cs
    (time.bind timeOfDay?).map some

end Timestamp

/-- Reads a timestamp. -/
def timestamp? (cs : List Char) : Option Timestamp := do
  let (year, cs) ← Timestamp.number? 4 4 cs
  let (month, cs) ← (Timestamp.pass? '-' '-' cs).bind (Timestamp.number? 1 2)
  let (day, cs) ← (Timestamp.pass? '-' '-' cs).bind (Timestamp.number? 1 2)
  let time ← Timestamp.rest? cs
  return { date := ⟨year, month, day⟩, time }

/-- Whether a text is written like a timestamp. A date alone has to be written in full. -/
def looksTimestamp (cs : List Char) : Bool :=
  (timestamp? cs).any fun t => t.time.isSome || cs.length == 10

namespace Timestamp

/-- The microseconds of a fraction of a second; places behind the sixth are dropped. -/
def microseconds (fraction : List Char) : Nat :=
  let ds := fraction.take 6
  Decimal.ofDigits ds * Nat.pow 10 (6 - ds.length)

/-- The time of a timestamp that has one. -/
def dateTime (d : Date) (t : TimeOfDay) : DateTime :=
  ⟨d, t.hour, t.minute, t.second, microseconds t.fraction, t.offset⟩

/-- The date or time of a timestamp. -/
def atom (t : Timestamp) : Except Error Atom :=
  match t.time with
  | none => if t.date.isValid then .ok (.date t.date) else .error .noValue
  | some time =>
    let moment := dateTime t.date time
    if moment.isValid then .ok (.time moment) else .error .noValue

end Timestamp

end UnderscoreLint.Yaml
