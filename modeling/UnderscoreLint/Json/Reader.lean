import UnderscoreLint.Json.Error
import UnderscoreLint.Text.Surrogate
import UnderscoreLint.Value

/-!
# Reading JSON

`Json.read` reads a JSON text into a value. Beside the numbers of the standard it takes
`NaN`, `Infinity` and `-Infinity`. A whole number stays a whole number of any size, up to
4300 digits; a number with a fraction or an exponent is a double. A name that occurs twice
in an object keeps its first place and takes its last value. Only so many lists and objects may
be open at once as there is room for.

The reader goes through the text from left to right and never looks back, so the first
thing that is wrong is the one it complains about. Functions take what is left of the text
and give back what is left after them; a complaint carries what was left where it arose,
and its place is computed from that at the very end.
-/

namespace UnderscoreLint.Json

/-- The end of an attempt to read: a complaint about the start of `rest`, a whole number that
is too long, or a list or object that there is no room for. -/
inductive Stop where
  | complaint (c : Complaint) (rest : List Char)
  | longInteger
  | tooDeep

/-- The outcome of an attempt to read. -/
abbrev Reading := Except Stop

/-- The characters that may stand between the parts of a document. -/
def isSpace (c : Char) : Bool :=
  c == ' ' || c == '\t' || c == '\n' || c == '\r'

/-- Skips the space at the start. -/
def skipSpace (cs : List Char) : List Char :=
  cs.dropWhile isSpace

/-! ### Strings -/

/-- The value of a hexadecimal digit in either case. -/
def hexValue? (c : Char) : Option Nat :=
  if '0' ≤ c ∧ c ≤ '9' then some (c.toNat - '0'.toNat)
  else if 'a' ≤ c ∧ c ≤ 'f' then some (c.toNat - 'a'.toNat + 10)
  else if 'A' ≤ c ∧ c ≤ 'F' then some (c.toNat - 'A'.toNat + 10)
  else none

/-- The number of four hexadecimal digits. -/
def hexUnit? (a b c d : Char) : Option Nat :=
  match hexValue? a, hexValue? b, hexValue? c, hexValue? d with
  | some a, some b, some c, some d => some (((a * 16 + b) * 16 + c) * 16 + d)
  | _, _, _, _ => none

/-- The character that a letter behind a backslash stands for. -/
def escaped? : Char → Option Char
  | '"' => some '"'
  | '\\' => some '\\'
  | '/' => some '/'
  | 'b' => some '\x08'
  | 'f' => some '\x0c'
  | 'n' => some '\n'
  | 'r' => some '\r'
  | 't' => some '\t'
  | _ => none

/-- Reads the inside of a string up to the closing quote, as code units. `opening` is the
text from the opening quote on, for the complaint that no quote closes it. A unit given by
its code must not be the last thing in the text. -/
def readUnits (opening : List Char) : List Char → List Nat → Reading (List Nat × List Char)
  | [], _ => .error (.complaint .unterminated opening)
  | '"' :: rest, units => .ok (units.reverse, rest)
  | ['\\'], _ => .error (.complaint .unterminated opening)
  | '\\' :: 'u' :: a :: b :: c :: d :: e :: rest, units =>
    match hexUnit? a b c d with
    | some u => readUnits opening (e :: rest) (u :: units)
    | none => .error (.complaint .badUnicode ('u' :: a :: b :: c :: d :: e :: rest))
  | '\\' :: 'u' :: rest, _ => .error (.complaint .badUnicode ('u' :: rest))
  | '\\' :: letter :: rest, units =>
    match escaped? letter with
    | some c => readUnits opening rest (c.toNat :: units)
    | none => .error (.complaint .badEscape ('\\' :: letter :: rest))
  | c :: rest, units =>
    if c.toNat < 0x20 then .error (.complaint .control (c :: rest))
    else readUnits opening rest (c.toNat :: units)

/-- Reads the inside of a string behind its opening quote. -/
def readString (cs : List Char) : Reading (Text × List Char) := do
  let (units, rest) ← readUnits ('"' :: cs) cs []
  return (⟨Text.Surrogate.join units⟩, rest)

/-! ### Numbers -/

/-- The parts of a numeral as they are written. -/
structure Numeral where
  negative : Bool
  whole : List Char
  fraction : List Char
  exponent : Option Int

/-- Cuts off the digits at the start. -/
def takeDigits (cs : List Char) : List Char × List Char :=
  cs.span Decimal.isDigit

/-- The digits before the point: one zero, or digits that do not start with one. -/
def takeWhole : List Char → Option (List Char × List Char)
  | '0' :: rest => some (['0'], rest)
  | c :: rest =>
    if Decimal.isDigit c then
      let (ds, rest) := takeDigits rest
      some (c :: ds, rest)
    else none
  | [] => none

/-- The digits behind a point; a point without digits behind it is not taken. -/
def takeFraction : List Char → List Char × List Char
  | '.' :: rest =>
    match takeDigits rest with
    | ([], _) => ([], '.' :: rest)
    | (ds, rest) => (ds, rest)
  | cs => ([], cs)

/-- The exponent; a mark without digits behind it is not taken. -/
def takeExponent : List Char → Option Int × List Char
  | [] => (none, [])
  | mark :: cs =>
    if mark = 'e' ∨ mark = 'E' then
      let (sign, unsigned) : Int × List Char := match cs with
        | '-' :: rest => (-1, rest)
        | '+' :: rest => (1, rest)
        | rest => (1, rest)
      match takeDigits unsigned with
      | ([], _) => (none, mark :: cs)
      | (ds, rest) => (some (sign * Decimal.ofDigits ds), rest)
    else (none, mark :: cs)

/-- Takes the longest numeral at the start. -/
def takeNumeral (cs : List Char) : Option (Numeral × List Char) :=
  let (negative, unsigned) := match cs with
    | '-' :: rest => (true, rest)
    | rest => (false, rest)
  (takeWhole unsigned).map fun (whole, rest) =>
    let (fraction, rest) := takeFraction rest
    let (exponent, rest) := takeExponent rest
    (⟨negative, whole, fraction, exponent⟩, rest)

/-- The number of a numeral: whole if it has neither fraction nor exponent. -/
def Numeral.scalar (n : Numeral) : Reading Scalar :=
  match n.fraction, n.exponent with
  | [], none =>
    if Decimal.longest < n.whole.length then .error .longInteger
    else
      let magnitude : Int := Decimal.ofDigits n.whole
      .ok (.int (if n.negative then -magnitude else magnitude))
  | fraction, exponent =>
    .ok (.float (Decimal.readDecimal n.negative (Decimal.ofDigits (n.whole ++ fraction))
      (exponent.getD 0 - fraction.length)))

/-! ### Values -/

/-- The words that stand for a scalar. -/
def words : List (List Char × Scalar) := [
  ("null".toList, .null),
  ("true".toList, .bool true),
  ("false".toList, .bool false),
  ("NaN".toList, .float (0.0 / 0.0)),
  ("Infinity".toList, .float (1.0 / 0.0)),
  ("-Infinity".toList, .float (-1.0 / 0.0))]

/-- Reads a word or a number. -/
def readScalar (cs : List Char) : Reading (Value × List Char) :=
  match words.find? fun w => w.1.isPrefixOf cs with
  | some (word, s) => .ok (.scalar s, cs.drop word.length)
  | none =>
    match takeNumeral cs with
    | some (n, rest) => do
      let s ← n.scalar
      return (.scalar s, rest)
    | none => .error (.complaint .value cs)

/-- Reads a name and the colon behind it, and skips the space before the value. -/
def readName : List Char → Reading (Text × List Char)
  | '"' :: cs => do
    let (name, rest) ← readString cs
    match skipSpace rest with
    | ':' :: rest => return (name, skipSpace rest)
    | rest => .error (.complaint .colon rest)
  | cs => .error (.complaint .propertyName cs)

/-- Goes into a list or an object, if there is room for one more. -/
def inside {α : Type} (room : Nat) (read : Nat → Reading α) : Reading α :=
  match room with
  | 0 => .error .tooDeep
  | room + 1 => read room

mutual

/-- Reads a value. The first argument bounds the depth of the recursion, and `room` is how many
lists and objects may be opened inside of one another. -/
def readValue : Nat → (room : Nat) → List Char → Reading (Value × List Char)
  | 0, _, cs => .error (.complaint .value cs)
  | _ + 1, _, '"' :: rest => do
    let (s, rest) ← readString rest
    return (.text s, rest)
  | fuel + 1, room, '[' :: rest =>
    inside room fun room =>
      match skipSpace rest with
      | ']' :: rest => .ok (.list [], rest)
      | rest => readItems fuel room rest []
  | fuel + 1, room, '\x7b' :: rest =>
    inside room fun room =>
      match skipSpace rest with
      | '\x7d' :: rest => .ok (.map [], rest)
      | rest => readEntries fuel room rest []
  | _ + 1, _, cs => readScalar cs

/-- Reads the items of a list from the next item on; `items` are those before it, the last
one first. -/
def readItems : Nat → (room : Nat) → List Char → List Value → Reading (Value × List Char)
  | 0, _, cs, _ => .error (.complaint .value cs)
  | fuel + 1, room, cs, items => do
    let (v, rest) ← readValue fuel room cs
    match skipSpace rest with
    | ']' :: rest => return (.list (v :: items).reverse, rest)
    | ',' :: rest => readItems fuel room (skipSpace rest) (v :: items)
    | rest => .error (.complaint .comma rest)

/-- Reads the entries of an object from the next name on; `entries` are those before it. -/
def readEntries : Nat → (room : Nat) → List Char → List (Text × Value) →
    Reading (Value × List Char)
  | 0, _, cs, _ => .error (.complaint .value cs)
  | fuel + 1, room, cs, entries => do
    let (name, rest) ← readName cs
    let (v, rest) ← readValue fuel room rest
    let entries := Value.insert name v entries
    match skipSpace rest with
    | '\x7d' :: rest => return (.map entries, rest)
    | ',' :: rest => readEntries fuel room (skipSpace rest) entries
    | rest => .error (.complaint .comma rest)

end

/-- Reads a whole document, with space around it. -/
def readDocument (room : Nat) (cs : List Char) : Reading Value :=
  if cs.head? = some '\ufeff' then .error (.complaint .byteOrderMark cs)
  else do
    let (v, rest) ← readValue (2 * cs.length + 2) room (skipSpace cs)
    match skipSpace rest with
    | [] => return v
    | rest => .error (.complaint .extraData rest)

/-- Reads a JSON text, in which `room` lists and objects may be open at once. -/
def read (room : Nat) (cs : List Char) : Except Error Value :=
  match readDocument room cs with
  | .ok v => .ok v
  | .error .longInteger => .error .longInteger
  | .error .tooDeep => .error .tooDeep
  | .error (.complaint c rest) =>
    .error (.malformed c (Text.Position.of cs (cs.length - rest.length)))

end UnderscoreLint.Json
