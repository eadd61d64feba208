import UnderscoreLint.Report.Console
import UnderscoreLint.Text.Quoted
import UnderscoreLint.Text.Styling

/-!
# Streams

What the program has to say goes to streams. A stream knows what to write for a letter: the
character itself if there is a code for it, something in its place if the stream is lenient, and
nothing otherwise. The characters of ASCII are always written as they are.

A text that has a letter for which nothing can be written is not written to the standard output at
all, and that ends the program. The standard error has the code of such a letter behind a backslash
instead, so that everything can be written to it.

What goes to no terminal has no styling.
-/

namespace UnderscoreLint.CommandLine

/-- Somewhere to write to. By default all characters have codes, and nothing else can be written. -/
structure Stream where
  isTerminal : Bool := false
  /-- What is written for a letter. -/
  spelling? : Letter → Option (List Char) := fun l => l.char?.map fun c => [c]
  spelling?_ascii : ∀ c : Char, c.toNat < 0x80 → spelling? (.char c) = some [c] := by
    exact fun _ _ => rfl

/-- Where the program writes to. -/
structure Streams where
  out : Stream := {}
  err : Stream := {}
  /-- The console on the standard output. -/
  console : Console := .plain

/-- Why something cannot be written. -/
inductive PrintError where
  /-- There is a letter in it for which nothing can be written. -/
  | noCode
  /-- The console cannot show it. -/
  | unshown
  deriving DecidableEq, Repr

namespace Stream

/-- A text and a line feed, as they are written. -/
def line (s : Stream) (t : Text) : Text :=
  (if s.isTerminal then t else t.unstyled) ++ "\n"

/-- The pieces of a text that stands alone. The empty text is not written. -/
def echo (s : Stream) (t : Text) : List (Option Text) :=
  if t = "" then [] else [some (s.line t)]

/-- What a text is written as, if there is something to write for all of its letters. -/
def encode? (s : Stream) (t : Text) : Option String :=
  (t.letters.mapM s.spelling?).map fun spellings => String.ofList spellings.flatten

/-- A text as it is written where everything has to be written. -/
def escaped (s : Stream) (t : Text) : String :=
  String.ofList (t.letters.flatMap fun l => (s.spelling? l).getD (Text.escapeCode l.code))

/-- Writes pieces one after the other, up to the first that cannot be written. A piece is missing
if the console could not show it. -/
def write (s : Stream) : List (Option Text) → String × Option PrintError
  | [] => ("", none)
  | none :: _ => ("", some .unshown)
  | some piece :: rest =>
    match s.encode? piece with
    | none => ("", some .noCode)
    | some written =>
      let (others, failure) := s.write rest
      (written ++ others, failure)

end Stream

end UnderscoreLint.CommandLine
