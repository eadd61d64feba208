import UnderscoreLint.Decimal.Layout

/-!
# Dates and times

A document can hold dates, and dates with the time of day. A time may tell how far it is from
universal time; then it is a point in time, and two such times are the same if they are the
same point, whatever their distances. A time that does not tell is never the same as one that
does.

On its own a date is shown with dashes, and a time with colons. Inside of a list or a mapping
both are shown by the numbers they are made of.
-/

namespace UnderscoreLint

/-- A day of the calendar. -/
structure Date where
  year : Nat
  month : Nat
  day : Nat
  deriving DecidableEq, Repr

namespace Date

/-- Whether February has a day more. -/
def isLeap (year : Nat) : Bool :=
  year % 4 == 0 && (year % 100 != 0 || year % 400 == 0)

/-- The number of days of a month. -/
def monthLength (year month : Nat) : Nat :=
  if month = 2 then if isLeap year then 29 else 28
  else if month = 4 ∨ month = 6 ∨ month = 9 ∨ month = 11 then 30
  else 31

/-- Whether there is such a day. There is no year zero, and years have four digits. -/
def isValid (d : Date) : Bool :=
  decide (1 ≤ d.year ∧ d.year ≤ 9999 ∧ 1 ≤ d.month ∧ d.month ≤ 12 ∧
    1 ≤ d.day ∧ d.day ≤ monthLength d.year d.month)

/-- The number of days of the first `months` months of a year. -/
def daysBefore (year : Nat) : (months : Nat) → Nat
  | 0 => 0
  | n + 1 => daysBefore year n + monthLength year (n + 1)

/-- The number of the day, counted from the first day of the first year. -/
def dayNumber (d : Date) : Nat :=
  let years := d.year - 1
  365 * years + years / 4 - years / 100 + years / 400 + daysBefore d.year (d.month - 1) + d.day - 1

/-- A number with zeros on the left up to `width` digits. -/
def padded (width n : Nat) : String :=
  String.ofList (Decimal.padLeft width (Decimal.digits n))

/-- The date as it is shown on its own. -/
def shown (d : Date) : String :=
  padded 4 d.year ++ "-" ++ padded 2 d.month ++ "-" ++ padded 2 d.day

/-- The numbers that a date is made of. -/
def fields (d : Date) : List Nat :=
  [d.year, d.month, d.day]

/-- The date as it is shown inside of a list or a mapping. -/
def literal (d : Date) : String :=
  "datetime.date(" ++ ", ".intercalate (d.fields.map Decimal.natText) ++ ")"

end Date

/-- A day and a time of that day. -/
structure DateTime where
  date : Date
  hour : Nat
  minute : Nat
  second : Nat
  microsecond : Nat
  /-- By how many minutes the time is ahead of universal time, if it tells. -/
  offset : Option Int
  deriving DecidableEq, Repr

namespace DateTime

/-- The number of minutes of a day. -/
def minutesPerDay : Nat := 1440

/-- Whether there is such a time. The distance from universal time is less than a day. -/
def isValid (t : DateTime) : Bool :=
  t.date.isValid && decide (t.hour < 24 ∧ t.minute < 60 ∧ t.second < 60) &&
    t.offset.all fun minutes => decide (minutes.natAbs < minutesPerDay)

/-- The microseconds from the first day of the first year, `offset` minutes taken off. -/
def microseconds (t : DateTime) (offset : Int) : Int :=
  let minutes : Int := (t.date.dayNumber * 24 + t.hour) * 60 + t.minute
  ((minutes - offset) * 60 + t.second) * 1000000 + t.microsecond

/-- Whether two times are the same. -/
def same (t u : DateTime) : Bool :=
  match t.offset, u.offset with
  | none, none => t.microseconds 0 == u.microseconds 0
  | some a, some b => t.microseconds a == u.microseconds b
  | _, _ => false

/-- The distance from universal time as it is shown behind a time. -/
def offsetText (minutes : Int) : String :=
  (if minutes < 0 then "-" else "+") ++ Date.padded 2 (minutes.natAbs / 60) ++ ":" ++
    Date.padded 2 (minutes.natAbs % 60)

/-- The time as it is shown on its own. A fraction of a second has six places. -/
def shown (t : DateTime) : String :=
  let fraction := if t.microsecond = 0 then "" else "." ++ Date.padded 6 t.microsecond
  t.date.shown ++ " " ++ Date.padded 2 t.hour ++ ":" ++ Date.padded 2 t.minute ++ ":" ++
    Date.padded 2 t.second ++ fraction ++ (t.offset.map offsetText).getD ""

/-- The numbers that a time is made of. Seconds and microseconds are left out if they and
what follows them are zero. -/
def fields (t : DateTime) : List Nat :=
  let tail :=
    if t.microsecond ≠ 0 then [t.second, t.microsecond]
    else if t.second ≠ 0 then [t.second]
    else []
  t.date.fields ++ [t.hour, t.minute] ++ tail

/-- The distance from universal time as it is shown among the numbers of a time: whole days,
which may be less than none, and seconds on top of them. -/
def offsetLiteral (minutes : Int) : String :=
  if minutes = 0 then "datetime.timezone.utc"
  else
    let seconds := Decimal.intText (minutes % minutesPerDay * 60)
    let days := if minutes < 0 then "days=-1, " else ""
    "datetime.timezone(datetime.timedelta(" ++ days ++ "seconds=" ++ seconds ++ "))"

/-- How many things are shown inside of one another where the distance from universal time is
shown: the distance, unless it is none, inside of a zone. -/
def zoneDepth (t : DateTime) : Nat :=
  match t.offset with
  | none => 0
  | some minutes => if minutes = 0 then 1 else 2

/-- The time as it is shown inside of a list or a mapping. -/
def literal (t : DateTime) : String :=
  let zone := t.offset.map fun minutes => "tzinfo=" ++ offsetLiteral minutes
  "datetime.datetime(" ++
    ", ".intercalate (t.fields.map Decimal.natText ++ zone.toList) ++ ")"

end DateTime

end UnderscoreLint
