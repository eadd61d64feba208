import UnderscoreLint.Json.Reader
import UnderscoreLint.Yaml.Tag
import UnderscoreLint.Yaml.Timestamp

/-!
# What plain scalars are

A plain scalar without a tag is a boolean, a number, a timestamp, nothing, or one of two
special keys if it is spelled like one, and a text otherwise. `resolve` recognises the
spelling. A line feed at the end of the scalar makes no difference to that.
-/

namespace UnderscoreLint.Yaml

/-- Cuts off a sign. -/
def dropSign : List Char → List Char
  | '-' :: rest | '+' :: rest => rest
  | cs => cs

/-- Whether a numeral is behind a minus sign. -/
def isNegative (cs : List Char) : Bool :=
  cs.head? == some '-'

/-- Whether a character is a digit below `base`, or an underscore. -/
def isDigitBelow (base : Nat) (c : Char) : Bool :=
  c == '_' || (Json.hexValue? c).any fun d => decide (d < base)

/-- Whether there is a character, and all satisfy `p`. -/
def someAll (p : Char → Bool) (cs : List Char) : Bool :=
  !cs.isEmpty && cs.all p

/-- Cuts a text at colons. -/
def atColons (cs : List Char) : List (List Char) :=
  cs.splitOn ':'

/-- Whether a part between colons is a number below sixty, written with one or two digits. -/
def isSixtieth : List Char → Bool
  | [a] => Decimal.isDigit a
  | [a, b] => Decimal.isDigit a && decide (a ≤ '5') && Decimal.isDigit b
  | _ => false

/-- Whether a text is a whole number without a leading zero. -/
def isDecimal : List Char → Bool
  | [] => false
  | c :: rest => Decimal.isDigit c && c != '0' && rest.all (isDigitBelow 10)

/-- Whether a text is spelled like an integer. -/
def looksInt (cs : List Char) : Bool :=
  match dropSign cs with
  | '0' :: 'b' :: ds => someAll (isDigitBelow 2) ds
  | '0' :: 'x' :: ds => someAll (isDigitBelow 16) ds
  | '0' :: ds => ds.all (isDigitBelow 8)
  | ds =>
    match atColons ds with
    | [whole] => isDecimal whole
    | first :: parts => isDecimal first && parts.all isSixtieth
    | [] => false

/-- Whether a text is an exponent with its sign. -/
def isSignedExponent : List Char → Bool
  | mark :: sign :: ds =>
    (mark == 'e' || mark == 'E') && (sign == '+' || sign == '-') && someAll Decimal.isDigit ds
  | _ => false

/-- Whether digits, and perhaps an exponent, are all that stands behind a point. -/
def isFraction (cs : List Char) : Bool :=
  let rest := cs.dropWhile (isDigitBelow 10)
  rest.isEmpty || isSignedExponent rest

/-- Whether a text starts with a digit and goes on with digits. -/
def startsWithDigits : List Char → Bool
  | [] => false
  | c :: rest => Decimal.isDigit c && rest.all (isDigitBelow 10)

/-- The names of infinity behind a point. -/
def infinityNames : List (List Char) := ["inf".toList, "Inf".toList, "INF".toList]

/-- The names of the undefined number behind a point. -/
def nanNames : List (List Char) := ["nan".toList, "NaN".toList, "NAN".toList]

/-- Whether a text is spelled like a double. A point is always part of it. -/
def looksFloat (cs : List Char) : Bool :=
  let unsigned := dropSign cs
  let whole := unsigned.takeWhile (· != '.')
  match unsigned.dropWhile (· != '.') with
  | [] => false
  | _ :: fraction =>
    if whole.isEmpty then
      infinityNames.contains fraction ||
        (unsigned == cs && (nanNames.contains fraction ||
          (fraction.head?.any Decimal.isDigit && isFraction fraction)))
    else
      match atColons whole with
      | [_] => startsWithDigits whole && isFraction fraction
      | first :: parts =>
        startsWithDigits first && parts.all isSixtieth && fraction.all (isDigitBelow 10)
      | [] => false

/-- The spellings of a word: lower case, capitalised, and upper case. -/
def spellings (word : String) : List String :=
  [word, word.capitalize, word.toUpper]

/-- The words for true. -/
def trueWords : List String := ["yes", "true", "on"]

/-- The words for false. -/
def falseWords : List String := ["no", "false", "off"]

/-- The text without one line feed at its end. -/
def dropFinalBreak (cs : List Char) : List Char :=
  if cs.getLast? = some '\n' then cs.dropLast else cs

/-- What a text that is not empty is by its spelling. The indicators of tags, anchors and
aliases have a tag of their own, which nothing is known of. -/
def resolveWord (word : String) : Tag :=
  if ((trueWords ++ falseWords).flatMap spellings).contains word then .bool
  else if looksFloat word.toList then .float
  else if looksInt word.toList then .int
  else if word == "<<" then .merge
  else if word == "~" || (spellings "null").contains word then .null
  else if looksTimestamp word.toList then .timestamp
  else if word == "=" then .default
  else if word == "!" || word == "&" || word == "*" then .unknown
  else .str

/-- What a plain scalar is by its spelling. -/
def resolve (text : String) : Tag :=
  if text == "" then .null else resolveWord (String.ofList (dropFinalBreak text.toList))

end UnderscoreLint.Yaml
