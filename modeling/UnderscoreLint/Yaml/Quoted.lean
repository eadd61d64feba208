import UnderscoreLint.Json.Reader
import UnderscoreLint.Yaml.Plain

/-!
# Quoted scalars

A scalar in single quotes escapes nothing but the quote, by writing it twice. One in double
quotes has escapes that start with a backslash; a backslash at the end of a line drops the
break. In both, line breaks fold as in plain scalars, and a document marker is an error.
-/

namespace UnderscoreLint.Yaml

/-- The character that a letter behind a backslash stands for. -/
def escapeLetter? : Char → Option Char
  | '0' => some '\x00'
  | 'a' => some '\x07'
  | 'b' => some '\x08'
  | 't' | '\t' => some '\t'
  | 'n' => some '\n'
  | 'v' => some '\x0b'
  | 'f' => some '\x0c'
  | 'r' => some '\r'
  | 'e' => some '\x1b'
  | ' ' => some ' '
  | '"' => some '"'
  | '\\' => some '\\'
  | '/' => some '/'
  | 'N' => some '\x85'
  | '_' => some '\xa0'
  | 'L' => some '\u2028'
  | 'P' => some '\u2029'
  | _ => none

/-- How many hexadecimal digits follow a letter behind a backslash. -/
def escapeWidth? : Char → Option Nat
  | 'x' => some 2
  | 'u' => some 4
  | 'U' => some 8
  | _ => none

/-- The number that the next `width` characters make up, which have to be hexadecimal digits. -/
def hexNumber (width : Nat) (c : Cursor) : Except Error Nat := do
  let digits := ((c.rest.take width).map Json.hexValue?).takeWhile Option.isSome
  if digits.length < width then
    let _ ← c.peekAt digits.length
    .error .malformed
  else return digits.foldl (fun n d => 16 * n + d.getD 0) 0

/-- Passes the line breaks and blanks at the start of lines, and collects the breaks; `breaks`
are those before, the last one first. -/
def quotedBreaks : Nat → Cursor → List Char → Except Error (List Char × Cursor)
  | 0, c, breaks => .ok (breaks.reverse, c)
  | fuel + 1, c, breaks => do
    if ← c.atDocumentMarker then .error .malformed
    else
      let c ← c.skipWhile fun ch => ch == ' ' || ch == '\t'
      match ← c.lineBreak? with
      | some (b, after) => quotedBreaks fuel after (b :: breaks)
      | none => return (breaks.reverse, c)

/-- Reads an escape behind its backslash: what it stands for, and the place behind it. Codes
beyond the last character have no value, and those of thirty-two bits are too large. -/
def quotedEscape (c : Cursor) : Except Error (List Letter × Cursor) := do
  match ← c.peek with
  | none => .error .malformed
  | some letter =>
    match escapeLetter? letter, escapeWidth? letter with
    | some ch, _ => return ([.char ch], ← c.next)
    | none, some width =>
      let c ← c.next
      let n ← hexNumber width c
      if 0x80000000 ≤ n then .error .tooLarge
      else if 0x10ffff < n then .error .noValue
      else return ([.ofCode n], ← c.advance width)
    | none, none =>
      match ← c.lineBreak? with
      | some (_, after) =>
        let (breaks, after) ← quotedBreaks (after.size + 1) after []
        return (breaks.map .char, after)
      | none => .error .malformed

/-- Reads a quoted scalar behind its opening quote. `done` is what was read so far, the last
letter first. -/
def quotedFrom (double : Bool) : Nat → Cursor → (done : List Letter) →
    Except Error (List Letter × Cursor)
  | 0, _, _ => .error .malformed
  | fuel + 1, c, done => do
    match ← c.peek with
    | none => .error .malformed
    | some ch =>
      if double && ch == '"' then return (done.reverse, ← c.next)
      else if !double && ch == '\'' then
        if (← c.peekAt 1) == some '\'' then
          quotedFrom double fuel (← c.advance 2) (.char '\'' :: done)
        else return (done.reverse, ← c.next)
      else if double && ch == '\\' then
        let (text, after) ← quotedEscape (← c.next)
        quotedFrom double fuel after (text.reverse ++ done)
      else if ch == ' ' || ch == '\t' || isBreak ch then
        let (blanks, afterBlanks) ← c.takeWhile fun ch => ch == ' ' || ch == '\t'
        match ← afterBlanks.lineBreak? with
        | some (first, after) =>
          let (others, after) ← quotedBreaks (after.size + 1) after []
          quotedFrom double fuel after ((foldBreaks first others).reverse.map .char ++ done)
        | none => quotedFrom double fuel afterBlanks (blanks.reverse.map .char ++ done)
      else quotedFrom double fuel (← c.next) (.char ch :: done)

/-- Reads a quoted scalar from its opening quote on. -/
def quotedScalar (double : Bool) (c : Cursor) : Except Error (List Letter × Cursor) := do
  quotedFrom double (c.size + 1) (← c.next) []

end UnderscoreLint.Yaml
