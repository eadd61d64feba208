import UnderscoreLint.Decimal.Digits
import UnderscoreLint.Text.Lines

/-!
# Errors in JSON texts

What can be wrong with a JSON text, and where. Numerals of whole numbers are limited in
length, and so is the number of lists and objects around a value. These are errors of their own
kinds: they have no place in the text.
-/

namespace UnderscoreLint.Json

/-- What is wrong at a place of a JSON text. -/
inductive Complaint where
  | value
  | propertyName
  | colon
  | comma
  | unterminated
  | control
  | badEscape
  | badUnicode
  | extraData
  | byteOrderMark
  deriving DecidableEq, Repr

/-- The words of a complaint. -/
def Complaint.message : Complaint → String
  | .value => "Expecting value"
  | .propertyName => "Expecting property name enclosed in double quotes"
  | .colon => "Expecting ':' delimiter"
  | .comma => "Expecting ',' delimiter"
  | .unterminated => "Unterminated string starting at"
  | .control => "Invalid control character at"
  | .badEscape => "Invalid \\escape"
  | .badUnicode => "Invalid \\uXXXX escape"
  | .extraData => "Extra data"
  | .byteOrderMark => "Unexpected UTF-8 BOM (decode using utf-8-sig)"

/-- Why a text is not read. -/
inductive Error where
  | malformed (complaint : Complaint) (position : Text.Position)
  | longInteger
  | tooDeep
  deriving DecidableEq, Repr

/-- The words of a complaint at its place. -/
def describe (complaint : Complaint) (position : Text.Position) : String :=
  let line := Decimal.natText position.line
  let column := Decimal.natText position.column
  let offset := Decimal.natText position.offset
  s!"{complaint.message}: line {line} column {column} (char {offset})"

end UnderscoreLint.Json
