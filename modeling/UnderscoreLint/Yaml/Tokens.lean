import UnderscoreLint.Yaml.Property
import UnderscoreLint.Yaml.Supply

/-!
# Cutting a YAML text into tokens

`cut` goes through a text and cuts it into tokens. What a colon means is known only once
it is reached: what stands before it on the same line is then a key. The scanner therefore
remembers, for each level of flow collections, where a key may have started, and puts the
token for a key there afterwards. Where a line is at the indentation of an open mapping, it
has to be a key.

A text that cannot be cut to its end still has tokens before the place where the cutting stops:
those that no later character can change.
-/

namespace UnderscoreLint.Yaml

/-- Where a key may have started. -/
structure KeyStart where
  /-- The number of tokens before it. -/
  token : Nat
  /-- Whether nothing but a key can be here. -/
  required : Bool
  index : Nat
  line : Nat
  column : Nat

/-- Whether what started there can no longer be a key: it is on another line, or too far back. -/
def KeyStart.isStale (k : KeyStart) (c : Cursor) : Bool :=
  k.line != c.line || decide (1024 < c.index - k.index)

/-- The state of cutting a text into tokens. -/
structure Scanner where
  cursor : Cursor
  /-- The tokens so far, the last one first. -/
  tokens : List Token := []
  /-- How many tokens there are. -/
  count : Nat := 0
  /-- How many flow collections are open. -/
  flow : Nat := 0
  /-- The column of the innermost open block, and those around it. -/
  indent : Int := -1
  outer : List Int := []
  /-- Whether a key may start here. -/
  keyAllowed : Bool := true
  /-- Where keys may have started, by level of flow collections. -/
  keys : List (Nat × KeyStart) := []
  done : Bool := false

/-- The scanner with one more token. -/
def Scanner.push (s : Scanner) (t : Token) : Scanner :=
  { s with tokens := t :: s.tokens, count := s.count + 1 }

/-- A step of the scanner. -/
abbrev Scan := StateT Scanner (Except Error)

namespace Scan

/-- Gives up on the text. -/
def refuse {α : Type} : Scan α :=
  throw .malformed

/-- Adds a token. -/
def emit (t : Token) : Scan Unit :=
  modify fun s => s.push t

/-- Puts a token at an earlier place, behind the first `i` tokens. -/
def emitAt (i : Nat) (t : Token) : Scan Unit :=
  modify fun s =>
    { s with tokens := s.tokens.insertIdx (s.count - i) t, count := s.count + 1 }

/-- Moves to a place. -/
def moveTo (c : Cursor) : Scan Unit :=
  modify fun s => { s with cursor := c }

/-- Goes past `n` characters. -/
def advance (n : Nat) : Scan Unit := do
  moveTo (← (← get).cursor.advance n)

/-- Says whether a key may start from here on. -/
def allowKey (b : Bool) : Scan Unit :=
  modify fun s => { s with keyAllowed := b }

/-- Forgets the starts of keys that can no longer be keys. One that has to be a key must not
be forgotten. -/
def dropStaleKeys : Scan Unit := do
  let s ← get
  if s.keys.any fun k => k.2.isStale s.cursor && k.2.required then refuse
  else set { s with keys := s.keys.filter fun k => !k.2.isStale s.cursor }

/-- Forgets the start of a key at this level. -/
def dropKey : Scan Unit := do
  let s ← get
  if s.keys.any fun k => k.1 == s.flow && k.2.required then refuse
  else set { s with keys := s.keys.filter fun k => k.1 != s.flow }

/-- Remembers that a key may start here. -/
def saveKey : Scan Unit := do
  let s ← get
  let required := s.flow == 0 && decide (s.indent = s.cursor.column)
  if s.keyAllowed then
    dropKey
    let start : KeyStart :=
      ⟨s.count, required, s.cursor.index, s.cursor.line, s.cursor.column⟩
    modify fun s => { s with keys := (s.flow, start) :: s.keys }

/-- Closes the blocks that are deeper than `column`, given the columns around the innermost. -/
def closeBlocks (column : Int) : List Int → Scanner → Scanner
  | [], s => s
  | o :: rest, s =>
    if column < s.indent then
      closeBlocks column rest ({ s with indent := o, outer := rest }.push .blockEnd)
    else s

/-- Closes the blocks that are deeper than `column`; inside of flow collections there are none. -/
def unwind (column : Int) : Scan Unit :=
  modify fun s => if s.flow = 0 then closeBlocks column s.outer s else s

/-- Opens a block at a column that is deeper than the innermost one; tells whether it did. -/
def openBlock (column : Nat) : Scan Bool := do
  let s ← get
  if s.indent < column then
    set { s with indent := column, outer := s.indent :: s.outer }
    return true
  else return false

/-- Passes spaces, comments and line breaks up to the next token. A new line outside of flow
collections may start a key. -/
def toNextTokenFrom : Nat → Scan Unit
  | 0 => pure ()
  | fuel + 1 => do
    let s ← get
    let c ← (← s.cursor.skipSpaces).skipComment
    match ← c.lineBreak? with
    | some (_, after) =>
      set { s with cursor := after, keyAllowed := s.keyAllowed || s.flow == 0 }
      toNextTokenFrom fuel
    | none => moveTo c

/-- Passes everything up to the next token; a byte order mark may start the text. -/
def toNextToken : Scan Unit := do
  let s ← get
  if s.cursor.index = 0 then
    if ← s.cursor.at? '\ufeff' then advance 1
  toNextTokenFrom (s.cursor.size + 1)

/-- Ends the text. -/
def streamEnd : Scan Unit := do
  unwind (-1)
  dropKey
  emit .streamEnd
  modify fun s => { s with keyAllowed := false, keys := [], done := true }

/-- Starts or ends a document. -/
def documentMarker (t : Token) : Scan Unit := do
  unwind (-1)
  dropKey
  allowKey false
  advance 3
  emit t

/-- Reads a directive. -/
def directiveLine : Scan Unit := do
  unwind (-1)
  dropKey
  allowKey false
  let (t, c) ← directive (← get).cursor
  emit t
  moveTo c

/-- Opens a flow collection, which may be a key. -/
def flowStart (t : Token) : Scan Unit := do
  saveKey
  modify fun s => { s with flow := s.flow + 1 }
  allowKey true
  advance 1
  emit t

/-- Closes a flow collection, of which one must be open. -/
def flowEnd (t : Token) : Scan Unit := do
  dropKey
  advance 1
  let s ← get
  if s.flow = 0 then refuse
  set { s with flow := s.flow - 1 }
  allowKey false
  emit t

/-- Separates the entries of a flow collection. -/
def flowEntry : Scan Unit := do
  allowKey true
  dropKey
  advance 1
  emit .flowEntry

/-- Starts an entry of a block sequence, and the sequence if it is the first. -/
def blockEntry : Scan Unit := do
  let s ← get
  if s.flow = 0 then
    if !s.keyAllowed then refuse
    if ← openBlock s.cursor.column then emit .blockSequenceStart
  allowKey true
  dropKey
  advance 1
  emit .blockEntry

/-- Starts a key that is marked as one. -/
def explicitKey : Scan Unit := do
  let s ← get
  if s.flow = 0 then
    if !s.keyAllowed then refuse
    if ← openBlock s.cursor.column then emit .blockMappingStart
  allowKey (s.flow == 0)
  dropKey
  advance 1
  emit .key

/-- Starts a value. What stands before it is a key, if a key may have started there. -/
def value : Scan Unit := do
  let s ← get
  match s.keys.lookup s.flow with
  | some start =>
    set { s with keys := s.keys.filter fun k => k.1 != s.flow }
    emitAt start.token .key
    if s.flow = 0 then
      if ← openBlock start.column then emitAt start.token .blockMappingStart
    allowKey false
  | none =>
    if s.flow = 0 then
      if !s.keyAllowed then refuse
      if ← openBlock s.cursor.column then emit .blockMappingStart
    allowKey (s.flow == 0)
    dropKey
  advance 1
  emit .value

/-- Reads a token that may be a key. -/
def keyLike (read : Cursor → Except Error (Token × Cursor)) : Scan Unit := do
  saveKey
  allowKey false
  let (t, c) ← read (← get).cursor
  emit t
  moveTo c

/-- Reads a block scalar. -/
def block (folded : Bool) : Scan Unit := do
  allowKey true
  dropKey
  let s ← get
  let (text, c) ← blockScalar folded s.indent s.cursor
  emit (.scalar (String.ofList text) false)
  moveTo c

/-- Reads a quoted scalar. -/
def quoted (double : Bool) : Scan Unit :=
  keyLike fun c => do
    let (text, after) ← quotedScalar double c
    return (.scalar ⟨text⟩ false, after)

/-- Reads a plain scalar. -/
def plain : Scan Unit := do
  saveKey
  let s ← get
  let (text, c, brokeLine) ← plainScalar (s.flow != 0) (s.indent + 1) s.cursor
  emit (.scalar (String.ofList text) true)
  moveTo c
  allowKey brokeLine

/-- Whether `ch` cannot start a plain scalar, or only before some characters. -/
def isIndicator (ch : Char) : Bool :=
  isSeparator (some ch) || "-?:,[]\x7b\x7d#&*!|>'\"%@`".toList.contains ch

/-- Whether a plain scalar starts here with `ch`. -/
def startsPlain (flow : Bool) (ch : Char) (c : Cursor) : Except Error Bool := do
  if isIndicator ch then
    let follows ← c.peekAt 1
    return !isSeparator follows && (ch == '-' || (!flow && (ch == '?' || ch == ':')))
  else return true

/-- Reads the token that starts with `ch`. -/
def token (s : Scanner) (ch : Char) : Scan Unit := do
  let c := s.cursor
  let inFlow := s.flow != 0
  let marker ← if c.column == 0 && (ch == '-' || ch == '.') then c.atMarker [ch] else pure false
  let standsOff ← if !marker && (ch == '-' || (!inFlow && (ch == '?' || ch == ':'))) then
      pure (isSeparator (← c.peekAt 1))
    else pure false
  if ch == '%' && c.column == 0 then directiveLine
  else if marker then documentMarker (if ch == '-' then .documentStart else .documentEnd)
  else if ch == '[' then flowStart .flowSequenceStart
  else if ch == '\x7b' then flowStart .flowMappingStart
  else if ch == ']' then flowEnd .flowSequenceEnd
  else if ch == '\x7d' then flowEnd .flowMappingEnd
  else if ch == ',' then flowEntry
  else if ch == '-' && standsOff then blockEntry
  else if ch == '?' && (inFlow || standsOff) then explicitKey
  else if ch == ':' && (inFlow || standsOff) then value
  else if ch == '*' then keyLike fun c => do
    let (name, after) ← anchorName (← c.next)
    return (.alias name, after)
  else if ch == '&' then keyLike fun c => do
    let (name, after) ← anchorName (← c.next)
    return (.anchor name, after)
  else if ch == '!' then keyLike tag
  else if ch == '|' && !inFlow then block false
  else if ch == '>' && !inFlow then block true
  else if ch == '\'' then quoted false
  else if ch == '"' then quoted true
  else if ← startsPlain inFlow ch c then plain
  else refuse

/-- Reads the next token and what goes with it. -/
def step : Scan Unit := do
  toNextToken
  dropStaleKeys
  let s ← get
  unwind s.cursor.column
  let s ← get
  match ← s.cursor.peek with
  | none => streamEnd
  | some ch => token s ch

end Scan

/-- The tokens that no later character can change: those before the first possible start of a
key. -/
def Scanner.settled (s : Scanner) : List Token :=
  let pending := s.keys.filter fun k => !k.2.isStale s.cursor
  let count := pending.foldl (fun n k => min n k.2.token) s.count
  s.tokens.reverse.take count

/-- What a text is cut into: its tokens, and why there are no more if the cutting stopped
before the end. -/
structure Cut where
  tokens : List Token
  stop : Option Error

/-- Reads tokens until the text is at its end. Each step passes a character or ends the text. -/
def Scanner.cut : Nat → Scanner → Cut
  | 0, s => ⟨s.settled, some .malformed⟩
  | fuel + 1, s =>
    match Scan.step.run s with
    | .ok (_, s') => if s'.done then ⟨s'.tokens.reverse, none⟩ else s'.cut fuel
    | .error e => ⟨s.settled, some e⟩

/-- Cuts a text into tokens, as far as it can be read. -/
def cut (s : Supply) : Cut :=
  let start : Cursor := { rest := s.chars, barrier := s.barrier }
  Scanner.cut (start.size + 1) { cursor := start }

end UnderscoreLint.Yaml
