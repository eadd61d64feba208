import UnderscoreLint.Yaml.Error

/-!
# A place in a YAML text

Reading YAML needs the line and the column of what is read, because both indentation and
the extent of keys depend on them. A cursor is the text ahead together with these counts.
A byte order mark takes no column.

The text ahead need not go on to the end of the text. Where it stops short, there is a barrier,
and whoever looks at what is behind it, or goes there, meets the error that the barrier holds.
-/

namespace UnderscoreLint.Yaml

/-- Whether `c` ends a line. -/
def isBreak (c : Char) : Bool :=
  c == '\n' || c == '\x85' || c == '\u2028' || c == '\u2029'

/-- Whether a line ends here: at a break or at the end of the text. -/
def isLineEnd (c : Option Char) : Bool :=
  c.all isBreak

/-- Whether a space, a break or the end of the text is here. -/
def isGap (c : Option Char) : Bool :=
  c.all fun c => c == ' ' || isBreak c

/-- Whether a space, a tab, a break or the end of the text is here. -/
def isSeparator (c : Option Char) : Bool :=
  c.all fun c => c == ' ' || c == '\t' || isBreak c

/-- The text ahead, and how many characters, lines and columns lie behind. -/
structure Cursor where
  rest : List Char
  /-- Why the text cannot be read beyond `rest`, unless it ends there. -/
  barrier : Option Error := none
  /-- The number of characters of the whole text, which bounds how often anything is done. -/
  size : Nat := rest.length
  index : Nat := 0
  line : Nat := 0
  column : Nat := 0

namespace Cursor

/-- The character `i` places ahead; nothing behind the end of the text. -/
def peekAt (c : Cursor) (i : Nat) : Except Error (Option Char) :=
  match c.rest[i]?, c.barrier with
  | none, some e => .error e
  | ch, _ => .ok ch

/-- The next character. -/
def peek (c : Cursor) : Except Error (Option Char) :=
  c.peekAt 0

/-- Whether the next character is `ch`. -/
def at? (c : Cursor) (ch : Char) : Except Error Bool :=
  return (← c.peek) == some ch

/-- Whether the text is at its end. -/
def atEnd (c : Cursor) : Except Error Bool :=
  return (← c.peek).isNone

/-- The next `n` characters, or as many as there are. -/
def ahead (c : Cursor) (n : Nat) : Except Error (List Char) :=
  let taken := c.rest.take n
  match c.barrier with
  | some e => if taken.length < n then .error e else .ok taken
  | none => .ok taken

/-- The place behind the next character. -/
def pass (c : Cursor) : Cursor :=
  match c.rest with
  | [] => c
  | ch :: rest =>
    if isBreak ch then
      { c with rest, index := c.index + 1, line := c.line + 1, column := 0 }
    else
      let column := if ch = '\ufeff' then c.column else c.column + 1
      { c with rest, index := c.index + 1, column }

/-- The place behind the next `n` characters. -/
def passes (c : Cursor) : Nat → Cursor
  | 0 => c
  | n + 1 => c.pass.passes n

/-- Goes past `n` characters, to a place where reading can go on. -/
def advance (c : Cursor) (n : Nat) : Except Error Cursor := do
  let after := c.passes n
  let _ ← after.peek
  return after

/-- Goes past one character. -/
def next (c : Cursor) : Except Error Cursor :=
  c.advance 1

/-- Takes the characters ahead that satisfy `p`. -/
def takeWhile (c : Cursor) (p : Char → Bool) : Except Error (List Char × Cursor) := do
  let taken := c.rest.takeWhile p
  return (taken, ← c.advance taken.length)

/-- Goes past the characters ahead that satisfy `p`. -/
def skipWhile (c : Cursor) (p : Char → Bool) : Except Error Cursor :=
  return (← c.takeWhile p).2

/-- Goes past the spaces ahead. -/
def skipSpaces (c : Cursor) : Except Error Cursor :=
  c.skipWhile (· == ' ')

/-- Goes past the rest of the line. -/
def skipLine (c : Cursor) : Except Error Cursor :=
  c.skipWhile fun ch => !isBreak ch

/-- Goes past a comment, if one starts here. -/
def skipComment (c : Cursor) : Except Error Cursor := do
  if ← c.at? '#' then c.skipLine else return c

/-- Goes past a line break and gives what it stands for: a line feed, except for the two
separators, which stand for themselves. -/
def lineBreak? (c : Cursor) : Except Error (Option (Char × Cursor)) := do
  match ← c.peek with
  | some ch =>
    if isBreak ch then return some (if ch = '\x85' then '\n' else ch, ← c.next)
    else return none
  | none => return none

/-- Whether three times one of `marks` and then a separator are ahead. -/
def atMarker (c : Cursor) (marks : List Char) : Except Error Bool := do
  let three ← c.ahead 3
  if marks.any fun ch => three == [ch, ch, ch] then return isSeparator (← c.peekAt 3)
  else return false

/-- Whether a line that starts or ends a document is ahead. -/
def atDocumentMarker (c : Cursor) : Except Error Bool :=
  c.atMarker ['-', '.']

end Cursor

end UnderscoreLint.Yaml
