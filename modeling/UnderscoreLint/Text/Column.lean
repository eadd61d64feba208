import UnderscoreLint.Text.Blank
import UnderscoreLint.Text.Width

/-!
# Text in a column

A text stands in a column of a given width as lines that fill the column. A line feed starts a
new line, and so does a word that does not fit behind the words before it. A tab is filled up to
the next multiple of eight columns. What is too wide even by itself is cut off.

The width that a text asks for is that of its widest line. All that ends a line by the rules of
Unicode counts for it, although only a line feed starts a new line in the column.
-/

namespace UnderscoreLint.Text.Column

/-- The controls that would move the cursor of a terminal or ring its bell. They are left out. -/
def cursorControls : List Char := ['\x07', '\x08', '\x0b', '\x0c', '\r']

/-- The letters of a text that a column shows. -/
def visible (t : Text) : List Letter :=
  t.letters.filter fun l => !l.char?.any cursorControls.contains

/-- Whether a letter ends a line. -/
def endsLine (l : Letter) : Bool :=
  l.char?.any fun c =>
    c == '\n' || ('\x1c' ≤ c && c ≤ '\x1e') || c == '\x85' || c == '\u2028' || c == '\u2029'

/-- A space. -/
def space : Letter := .char ' '

/-- The width that a text asks for. -/
def natural (t : Text) : Nat :=
  (((visible t).splitOnP endsLine).map width).foldl max 0

/-- The distance between two tab stops. -/
def tabStop : Nat := 8

/-- Joins the parts of a line between its tabs, from the column `column` on. A tab takes at
least one space. -/
def fillTabs : (column : Nat) → (parts : List (List Letter)) → List Letter
  | _, [] => []
  | _, [part] => part
  | column, part :: parts =>
    let stretch := part ++ [space]
    let reached := column + width stretch
    let missing := (tabStop - reached % tabStop) % tabStop
    stretch ++ List.replicate missing space ++ fillTabs (reached + missing) parts

/-- A line with its tabs filled up. -/
def expandTabs (line : List Letter) : List Letter :=
  fillTabs 0 (line.splitOn (.char '\t'))

/-- The first word of a line, with the blanks around it, and what follows. -/
def nextWord (line : List Letter) : List Letter × List Letter :=
  let blanks := line.takeWhile isBlankLetter
  let word := (line.drop blanks.length).takeWhile fun l => !isBlankLetter l
  let count := blanks.length + word.length
  let after := ((line.drop count).takeWhile isBlankLetter).length
  (line.take (count + after), line.drop (count + after))

/-- A text without the blanks at its end. -/
def trimEnd (ls : List Letter) : List Letter :=
  ls.take (ls.length - (ls.reverse.takeWhile isBlankLetter).length)

/-- Breaks `rest` before the words that do not fit. `line` stands before it and takes `taken`
columns. -/
def breakFrom (size : Nat) : Nat → (line : List Letter) → (taken : Nat) → (rest : List Letter) →
    List (List Letter)
  | 0, line, _, rest => [line ++ rest]
  | fuel + 1, line, taken, rest =>
    if rest.all isBlankLetter then [line ++ rest]
    else
      let (word, after) := nextWord rest
      if line = [] ∨ taken + width (trimEnd word) ≤ size then
        breakFrom size fuel (line ++ word) (taken + width word) after
      else line :: breakFrom size fuel word (width word) after

/-- The lines that a line without tabs is broken into. -/
def breakLine (size : Nat) (line : List Letter) : List (List Letter) :=
  breakFrom size line.length [] 0 line

/-- A line that has more characters than the column has columns loses blanks at its end, at
most as many as it has too many. -/
def trimExcess (size : Nat) (line : List Letter) : List Letter :=
  line.take (max (trimEnd line).length (min size line.length))

/-- A line filled up with spaces. -/
def fill (size : Nat) (line : List Letter) : List Letter :=
  line ++ List.replicate (size - width line) space

/-- The longest start of a line that fits, filled up where only half of a wide character would. -/
def cropTo (size : Nat) (line : List Letter) : List Letter :=
  let starts := (List.range (line.length + 1)).map line.take
  fill size ((starts.reverse.find? fun start => decide (width start ≤ size)).getD [])

/-- A line that is too wide is cut off, with an ellipsis at its end. -/
def cutOff (size : Nat) (line : List Letter) : List Letter :=
  if size < width line then cropTo (size - 1) line ++ [.char '…'] else line

/-- A line that fills the column. A joiner at its end takes in the first space, which is why
there is a second filling up. -/
def fit (size : Nat) (line : List Letter) : Text :=
  ⟨fill size (fill size (cutOff size (trimExcess size line)))⟩

/-- The lines of a text in a column. -/
def lines (size : Nat) (t : Text) : List Text :=
  ((visible t).splitOn (.char '\n')).flatMap fun line =>
    (breakLine size (expandTabs line)).map (fit size)

end UnderscoreLint.Text.Column
