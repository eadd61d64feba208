import UnderscoreLint.Decimal.Digits
import UnderscoreLint.Yaml.Cursor

/-!
# Block scalars

A block scalar is a run of indented lines behind a header. The header tells whether lines
are kept or folded, by how much the lines are indented if that cannot be seen, and what
happens to the breaks at the end: one is kept, all are kept, or all are dropped.
-/

namespace UnderscoreLint.Yaml

/-- What becomes of the line breaks at the end of a block scalar. -/
inductive Chomping where
  | clip
  | keep
  | strip
  deriving DecidableEq, Repr

/-- Reads the sign that says what becomes of the breaks at the end. -/
def chomping? (c : Cursor) : Except Error (Option (Chomping × Cursor)) := do
  match ← c.peek with
  | some '+' => return some (.keep, ← c.next)
  | some '-' => return some (.strip, ← c.next)
  | _ => return none

/-- Reads the digit that gives the indentation; zero is no indentation. -/
def increment (c : Cursor) : Except Error (Option Nat × Cursor) := do
  match ← c.peek with
  | some ch =>
    if Decimal.isDigit ch then
      if ch = '0' then .error .malformed else return (some (Decimal.digitValue ch), ← c.next)
    else return (none, c)
  | none => return (none, c)

/-- Reads the header behind the indicator: sign and digit in either order. -/
def blockHeader (c : Cursor) : Except Error (Chomping × Option Nat × Cursor) := do
  let (chomping, digit, c) ← match ← chomping? c with
    | some (chomping, c) => do
      let (digit, c) ← increment c
      pure (chomping, digit, c)
    | none => do
      let (digit, c) ← increment c
      if digit.isNone then pure (.clip, digit, c)
      else
        match ← chomping? c with
        | some (chomping, c) => pure (chomping, digit, c)
        | none => pure (.clip, digit, c)
  if isGap (← c.peek) then return (chomping, digit, c) else .error .malformed

/-- Passes the rest of a line that may hold a comment and nothing else. -/
def ignoredLine (c : Cursor) : Except Error Cursor := do
  let c ← (← c.skipSpaces).skipComment
  if isLineEnd (← c.peek) then return ((← c.lineBreak?).map (·.2)).getD c
  else .error .malformed

/-- Passes the empty lines at the start of a block, and finds the deepest indentation of
them and of the first line that is not empty. The breaks are collected with the last one
first. -/
def blockIndentation : Nat → Cursor → (breaks : List Char) → (deepest : Nat) →
    Except Error (List Char × Nat × Cursor)
  | 0, c, breaks, deepest => .ok (breaks, deepest, c)
  | fuel + 1, c, breaks, deepest => do
    match ← c.lineBreak? with
    | some (b, after) => blockIndentation fuel after (b :: breaks) deepest
    | none =>
      if ← c.at? ' ' then
        let after ← c.next
        blockIndentation fuel after breaks (max deepest after.column)
      else return (breaks, deepest, c)

/-- Passes spaces up to the column `indent`. -/
def skipIndent (indent : Nat) (c : Cursor) : Except Error Cursor :=
  c.advance ((c.rest.take (indent - c.column)).takeWhile (· == ' ')).length

/-- Passes empty lines and the indentation of the next line, and collects the breaks, the last
one first. -/
def blockBreaks (indent : Nat) : Nat → Cursor → (breaks : List Char) →
    Except Error (List Char × Cursor)
  | 0, c, breaks => .ok (breaks, c)
  | fuel + 1, c, breaks => do
    let c ← skipIndent indent c
    match ← c.lineBreak? with
    | some (b, after) => blockBreaks indent fuel after (b :: breaks)
    | none => return (breaks, c)

/-- The end of a run of lines: the text so far, the break behind the last line if there is
one, the breaks of the empty lines behind that, and the place reached. Text and breaks have the
last character first. -/
structure BlockLines where
  text : List Char
  lastBreak : List Char
  breaks : List Char
  cursor : Cursor

/-- Whether a line of a block goes on here. -/
def blockGoesOn (indent : Nat) (c : Cursor) : Except Error Bool :=
  return decide (c.column = indent) && !(← c.atEnd)

/-- Whether the line ahead starts with neither a space nor a tab. -/
def startsFlush (c : Cursor) : Except Error Bool :=
  return !(← c.peek).any fun ch => ch == ' ' || ch == '\t'

/-- Reads the lines of a block. Two lines that start with neither a space nor a tab are
folded into one, if the block folds. -/
def blockLines (folded : Bool) (indent : Nat) : Nat → BlockLines → Except Error BlockLines
  | 0, b => .ok b
  | fuel + 1, b => do
    if ← blockGoesOn indent b.cursor then
      let flush ← startsFlush b.cursor
      let (line, afterLine) ← b.cursor.takeWhile fun ch => !isBreak ch
      let (lastBreak, afterBreak) := match ← afterLine.lineBreak? with
        | some (br, after) => ([br], after)
        | none => ([], afterLine)
      let (breaks, c) ← blockBreaks indent (afterBreak.size + 1) afterBreak []
      let text := line.reverse ++ b.breaks ++ b.text
      if ← blockGoesOn indent c then
        let folds := folded && lastBreak == ['\n'] && flush && (← startsFlush c)
        let join := if folds then if breaks = [] then [' '] else [] else lastBreak
        blockLines folded indent fuel ⟨join ++ text, lastBreak, breaks, c⟩
      else return ⟨text, lastBreak, breaks, c⟩
    else return b

/-- Reads a block scalar from its indicator on; `indent` is the indentation around it. -/
def blockScalar (folded : Bool) (indent : Int) (c : Cursor) :
    Except Error (List Char × Cursor) := do
  let (chomping, digit, c) ← blockHeader (← c.next)
  let c ← ignoredLine c
  let least := (indent + 1).toNat.max 1
  let fuel := c.size + 1
  let (breaks, indent, c) ← match digit with
    | some n => do
      let indent := least + n - 1
      let (breaks, c) ← blockBreaks indent fuel c []
      pure (breaks, indent, c)
    | none => do
      let (breaks, deepest, c) ← blockIndentation fuel c [] 0
      pure (breaks, max least deepest, c)
  let b ← blockLines folded indent fuel ⟨[], [], breaks, c⟩
  let tail := match chomping with
    | .clip => b.lastBreak
    | .keep => b.breaks ++ b.lastBreak
    | .strip => []
  return ((tail ++ b.text).reverse, b.cursor)

end UnderscoreLint.Yaml
