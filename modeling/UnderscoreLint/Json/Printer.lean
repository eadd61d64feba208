import UnderscoreLint.Text.Surrogate
import UnderscoreLint.Value

/-!
# Writing JSON

`Json.write` writes a value as a JSON text of ASCII characters, one item or entry on a
line, two spaces deeper for each level. Empty lists and mappings stay on one line. A record
is written like the mapping of its attributes.
-/

namespace UnderscoreLint.Json

/-- A code unit behind a backslash and `u`. -/
def writeUnit (u : Nat) : List Char :=
  '\\' :: 'u' :: Text.hexDigits 4 u

/-- One character of a string. Everything that is not printable ASCII is written by its
code units, except for the five controls that have a letter. -/
def writeChar (c : Char) : List Char :=
  if c = '"' then ['\\', '"']
  else if c = '\\' then ['\\', '\\']
  else if c = '\n' then ['\\', 'n']
  else if c = '\r' then ['\\', 'r']
  else if c = '\t' then ['\\', 't']
  else if c = '\x08' then ['\\', 'b']
  else if c = '\x0c' then ['\\', 'f']
  else if 0x20 ≤ c.toNat ∧ c.toNat < 0x7f then [c]
  else (Text.Surrogate.split c).flatMap writeUnit

/-- One letter of a string. -/
def writeLetter : Letter → List Char
  | .char c => writeChar c
  | .half i => writeUnit (Letter.half i).code

/-- A text in its quotes. -/
def writeString (t : Text) : List Char :=
  '"' :: t.letters.flatMap writeLetter ++ ['"']

/-- A scalar. -/
def writeScalar : Scalar → List Char
  | .null => "null".toList
  | .bool true => "true".toList
  | .bool false => "false".toList
  | .int n => Decimal.ofInt n
  | .float x => Decimal.FloatFormat.json.write x
  | .text t => writeString t

/-- The start of a line, `depth` levels deep. -/
def newLine (depth : Nat) : List Char :=
  '\n' :: List.replicate (2 * depth) ' '

mutual

/-- A value, `depth` levels deep. -/
def writeValue (depth : Nat) : Value → List Char
  | .scalar s => writeScalar s
  | .list [] => ['[', ']']
  | .list (v :: rest) =>
    '[' :: newLine (depth + 1) ++ writeValue (depth + 1) v ++ writeItems (depth + 1) rest ++
      newLine depth ++ [']']
  | .map entries => writeMap depth entries
  | .record entries => writeMap depth entries

/-- The items behind the first one. -/
def writeItems (depth : Nat) : List Value → List Char
  | [] => []
  | v :: rest => ',' :: newLine depth ++ writeValue depth v ++ writeItems depth rest

/-- A mapping. -/
def writeMap (depth : Nat) : List (Text × Value) → List Char
  | [] => ['\x7b', '\x7d']
  | (name, v) :: rest =>
    '\x7b' :: newLine (depth + 1) ++ writeString name ++ ':' :: ' ' :: writeValue (depth + 1) v ++
      writeEntries (depth + 1) rest ++ newLine depth ++ ['\x7d']

/-- The entries behind the first one. -/
def writeEntries (depth : Nat) : List (Text × Value) → List Char
  | [] => []
  | (name, v) :: rest =>
    ',' :: newLine depth ++ writeString name ++ ':' :: ' ' :: writeValue depth v ++
      writeEntries depth rest

end

/-- A value as a JSON text. -/
def write (v : Value) : String :=
  String.ofList (writeValue 0 v)

end UnderscoreLint.Json
