import UnderscoreLint.Json.Reader
import UnderscoreLint.Yaml.Block
import UnderscoreLint.Yaml.Quoted
import UnderscoreLint.Yaml.Token

/-!
# Names, tags and directives

The small parts of a YAML text that are neither scalars nor punctuation: the names of
anchors and aliases, tags, and the directives before a document.
-/

namespace UnderscoreLint.Yaml

/-- Whether `c` may stand in the name of an anchor, a handle or a directive. -/
def isNameChar (c : Char) : Bool :=
  Decimal.isDigit c || ('a' ≤ c && c ≤ 'z') || ('A' ≤ c && c ≤ 'Z') || c == '-' || c == '_'

/-- Whether the name of an anchor may end before `c`. -/
def endsAnchor (c : Option Char) : Bool :=
  isSeparator c || c.any fun c => "?:,]\x7d%@`".toList.contains c

/-- Reads the name of an anchor or alias behind its indicator. -/
def anchorName (c : Cursor) : Except Error (String × Cursor) := do
  let (name, after) ← c.takeWhile isNameChar
  if name = [] || !endsAnchor (← after.peek) then .error .malformed
  else return (String.ofList name, after)

/-- Whether `c` may stand in a tag. -/
def isTagChar (c : Char) : Bool :=
  Decimal.isDigit c || ('a' ≤ c && c ≤ 'z') || ('A' ≤ c && c ≤ 'Z') ||
    "-;/?:@&=+$,_.!~*'()[]%".toList.contains c

/-- Reads bytes given by a percent sign and two hexadecimal digits each; `bytes` are those
before, the last one first. -/
def percentBytes : Nat → Cursor → List UInt8 → Except Error (List UInt8 × Cursor)
  | 0, c, bytes => .ok (bytes.reverse, c)
  | fuel + 1, c, bytes => do
    if ← c.at? '%' then
      let c ← c.next
      let code ← hexNumber 2 c
      percentBytes fuel (← c.advance 2) (code.toUInt8 :: bytes)
    else return (bytes.reverse, c)

/-- Reads the characters of a tag; bytes given by their codes make up characters. `done` is what
was read so far, the last character first. -/
def tagCharsFrom : Nat → Cursor → List Char → Except Error (List Char × Cursor)
  | 0, c, done => .ok (done.reverse, c)
  | fuel + 1, c, done => do
    match ← c.peek with
    | some ch =>
      if ch == '%' then
        let (bytes, after) ← percentBytes (c.size + 1) c []
        match String.fromUTF8? (ByteArray.mk bytes.toArray) with
        | some s => tagCharsFrom fuel after (s.toList.reverse ++ done)
        | none => .error .malformed
      else if isTagChar ch then tagCharsFrom fuel (← c.next) (ch :: done)
      else return (done.reverse, c)
    | none => return (done.reverse, c)

/-- Reads the characters of a tag, of which there must be one. -/
def tagChars (c : Cursor) : Except Error (String × Cursor) := do
  let (chars, after) ← tagCharsFrom (c.size + 1) c []
  if chars = [] then .error .malformed else return (String.ofList chars, after)

/-- Reads a handle: an exclamation mark, or a name between two of them. -/
def tagHandle (c : Cursor) : Except Error (String × Cursor) := do
  if ← c.at? '!' then
    let c ← c.next
    if ← c.at? ' ' then return ("!", c)
    else
      let (name, after) ← c.takeWhile isNameChar
      if ← after.at? '!' then return (String.ofList ('!' :: name ++ ['!']), ← after.next)
      else .error .malformed
  else .error .malformed

/-- Whether a tag starts with a handle that is more than its mark: there is another mark before
the next gap. -/
def hasHandle (c : Cursor) : Except Error Bool := do
  let before := (c.rest.drop 1).takeWhile fun ch => ch != '!' && !isGap (some ch)
  return (← c.peekAt (1 + before.length)) == some '!'

/-- Reads a tag: written out in angle brackets, the mark alone, or a handle and the rest. -/
def tag (c : Cursor) : Except Error (Token × Cursor) := do
  let follows ← c.peekAt 1
  let (token, after) ←
    if follows == some '<' then do
      let (text, after) ← tagChars (← c.advance 2)
      if ← after.at? '>' then pure (Token.tag none text, ← after.next) else .error .malformed
    else if isSeparator follows then do
      pure (Token.tag none "!", ← c.next)
    else do
      let (handle, after) ← if ← hasHandle c then tagHandle c else pure ("!", ← c.next)
      let (suffix, after) ← tagChars after
      pure (Token.tag (some handle) suffix, after)
  if isGap (← after.peek) then return (token, after) else .error .malformed

/-- Reads a number of a version. -/
def versionNumber (c : Cursor) : Except Error (Nat × Cursor) := do
  let (ds, after) ← c.takeWhile Decimal.isDigit
  if ds = [] then .error .malformed
  else if Decimal.longest < ds.length then .error .noValue
  else return (Decimal.ofDigits ds, after)

/-- Reads what follows the name of a directive. -/
def directiveValue (name : List Char) (c : Cursor) : Except Error (Directive × Cursor) := do
  if name = "YAML".toList then
    let (major, after) ← versionNumber (← c.skipSpaces)
    if ← after.at? '.' then
      let (_, after) ← versionNumber (← after.next)
      if isGap (← after.peek) then return (.version major, after) else .error .malformed
    else .error .malformed
  else if name = "TAG".toList then
    let (handle, after) ← tagHandle (← c.skipSpaces)
    if ← after.at? ' ' then
      let (expansion, after) ← tagChars (← after.skipSpaces)
      if isGap (← after.peek) then return (.tag handle expansion, after) else .error .malformed
    else .error .malformed
  else return (.other, ← c.skipLine)

/-- Reads a directive from its percent sign on, to the end of the line. -/
def directive (c : Cursor) : Except Error (Token × Cursor) := do
  let (name, after) ← (← c.next).takeWhile isNameChar
  if name = [] || !isGap (← after.peek) then .error .malformed
  else
    let (d, after) ← directiveValue name after
    let after ← ignoredLine after
    return (.directive d, after)

end UnderscoreLint.Yaml
