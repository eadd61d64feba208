import UnderscoreLint.Yaml.Cursor

/-!
# Plain scalars

A plain scalar has no quotes. It ends at a colon or a comment that stands off, in flow
collections also at their punctuation, and it goes on over line breaks as long as the next
line is indented deeper than its surroundings. A break inside of it is a space; of several
breaks the first is dropped.
-/

namespace UnderscoreLint.Yaml

/-- The punctuation of flow collections that may follow a colon directly. -/
def isFlowPunctuation (c : Char) : Bool :=
  c == ',' || c == '[' || c == ']' || c == '\x7b' || c == '\x7d'

/-- The characters up to where a plain scalar pauses or ends. -/
def plainChunk (flow : Bool) : List Char → List Char
  | [] => []
  | c :: rest =>
    let follows := rest.head?
    if isSeparator (some c) then []
    else if c == ':' && (isSeparator follows || (flow && follows.any isFlowPunctuation)) then []
    else if flow && (c == '?' || isFlowPunctuation c) then []
    else c :: plainChunk flow rest

/-- The end of a pause inside of a plain scalar. -/
structure Pause where
  /-- What stands for the pause; nothing if the scalar ends here. -/
  text : List Char
  cursor : Cursor
  /-- Whether the pause goes over a line break. -/
  brokeLine : Bool

/-- Passes spaces and line breaks behind a first break and collects the breaks, the last one
first. Gives nothing for the breaks if a document marker comes up. -/
def pauseBreaks : Nat → Cursor → List Char → Except Error (Option (List Char) × Cursor)
  | 0, c, breaks => .ok (some breaks, c)
  | fuel + 1, c, breaks => do
    match ← c.lineBreak? with
    | some (b, after) =>
      if ← after.atDocumentMarker then return (none, after)
      else pauseBreaks fuel after (b :: breaks)
    | none =>
      if ← c.at? ' ' then pauseBreaks fuel (← c.next) breaks else return (some breaks, c)

/-- What breaks stand for: a single line feed is a space, and the first of several is dropped. -/
def foldBreaks (first : Char) (others : List Char) : List Char :=
  if first ≠ '\n' then first :: others
  else if others = [] then [' ']
  else others

/-- Passes the pause after a chunk of a plain scalar. -/
def plainPause (c : Cursor) : Except Error Pause := do
  let (spaces, afterSpaces) ← c.takeWhile (· == ' ')
  match ← afterSpaces.lineBreak? with
  | none => return ⟨spaces, afterSpaces, false⟩
  | some (first, after) =>
    if ← after.atDocumentMarker then return ⟨[], after, true⟩
    else
      match ← pauseBreaks (after.size + 1) after [] with
      | (none, c) => return ⟨[], c, true⟩
      | (some breaks, c) => return ⟨foldBreaks first breaks.reverse, c, true⟩

/-- Takes the characters up to where a plain scalar pauses or ends. Whether it does so at a
colon is told by the character behind the colon. -/
def takeChunk (flow : Bool) (c : Cursor) : Except Error (List Char) := do
  if ← c.at? '#' then return []
  let chunk := plainChunk flow c.rest
  if (← c.peekAt chunk.length) = some ':' then
    let _ ← c.peekAt (chunk.length + 1)
  return chunk

/-- Reads a plain scalar from a chunk on. `pause` stands before the chunk, `done` before
that, with the last character first; `brokeLine` tells whether the pause went over a line
break. -/
def plainFrom (flow : Bool) (indent : Int) :
    Nat → Cursor → (done pause : List Char) → (brokeLine : Bool) →
    Except Error (List Char × Cursor × Bool)
  | 0, c, done, _, brokeLine => .ok (done.reverse, c, brokeLine)
  | fuel + 1, c, done, pause, brokeLine => do
    let chunk ← takeChunk flow c
    if chunk = [] then return (done.reverse, c, brokeLine)
    else
      let done := chunk.reverse ++ pause.reverse ++ done
      let p ← plainPause (← c.advance chunk.length)
      let outdented := !flow && decide ((p.cursor.column : Int) < indent)
      if p.text = [] || (← p.cursor.at? '#') || outdented then
        return (done.reverse, p.cursor, p.brokeLine)
      else plainFrom flow indent fuel p.cursor done p.text p.brokeLine

/-- Reads a plain scalar: its text, the place behind it, and whether a line break was passed
at its end. `indent` is the least column that a further line may start in. -/
def plainScalar (flow : Bool) (indent : Int) (c : Cursor) :
    Except Error (List Char × Cursor × Bool) :=
  plainFrom flow indent (c.size + 1) c [] [] false

end UnderscoreLint.Yaml
