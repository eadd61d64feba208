import UnderscoreLint.Numeral
import UnderscoreLint.Yaml.Resolve

/-!
# Numbers in YAML

`readInt` and `readFloat` give the numbers of scalars that are tagged as such, however they are
spelled. Underscores are ignored. Behind a sign, a zero tells the base of an integer, and
parts between colons count in base sixty. What is left is a numeral in free form, so a second
sign does no harm.
-/

namespace UnderscoreLint.Yaml

/-- Adds up parts in base sixty, the last one counting single. -/
def inSixties (parts : List Int) : Int :=
  parts.foldl (fun n part => 60 * n + part) 0

/-- The number of an integer behind its sign. -/
def readUnsigned? : List Char → Option Int
  | '0' :: 'b' :: ds => Numeral.integer? 2 ds
  | '0' :: 'x' :: ds => Numeral.integer? 16 ds
  | '0' :: ds => Numeral.integer? 8 ('0' :: ds)
  | ds => ((atColons ds).mapM (Numeral.integer? 10)).map inSixties

/-- The number of an integer. -/
def readInt (text : String) : Except Error Int :=
  let cs := text.toList.filter (· != '_')
  if (dropSign cs).isEmpty then .error .emptyNumber
  else
    match readUnsigned? (dropSign cs) with
    | some n => .ok (if isNegative cs then -n else n)
    | none => .error .noValue

/-- The double of a power of sixty; there is none if it is too large. -/
def sixtyPower (k : Nat) : Except Error Float :=
  let power := Decimal.readDecimal false (Nat.pow 60 k) 0
  if power.isInf then .error .tooLarge else .ok power

/-- Adds up doubles in base sixty, the first one counting `60 ^ k`. Each step is rounded. -/
def sumSixties : (k : Nat) → (sum : Float) → List Float → Except Error Float
  | _, sum, [] => .ok sum
  | k, sum, part :: rest => do
    let power ← sixtyPower k
    sumSixties (k + 1) (sum + part * power) rest

/-- The number of a double behind its sign. -/
def readMagnitude : List Char → Except Error Float
  | ['.', 'i', 'n', 'f'] => .ok (1.0 / 0.0)
  | ['.', 'n', 'a', 'n'] => .ok (0.0 / 0.0)
  | ds =>
    match (atColons ds).mapM Numeral.double? with
    | none => .error .noValue
    | some [x] => .ok x
    | some parts => sumSixties 0 0.0 parts.reverse

/-- A double as it is read: without underscores, in small letters. -/
def floatChars (text : String) : List Char :=
  (text.toList.filter (· != '_')).map Char.toLower

/-- Whether a double is given by the word for NaN. -/
def isNanWord (text : String) : Bool :=
  dropSign (floatChars text) == ['.', 'n', 'a', 'n']

/-- The number of a double. -/
def readFloat (text : String) : Except Error Float := do
  let cs := floatChars text
  if cs.isEmpty then .error .emptyNumber
  else
    let x ← readMagnitude (dropSign cs)
    return if isNegative cs then -x else x

end UnderscoreLint.Yaml
