import UnderscoreLint.Text

/-!
# Styling sequences

A terminal is told about colours and the like by sequences inside of the text: the escape
character, an opening bracket, parameters, intermediate characters, and a final character. Each
of the three kinds is a stretch of ASCII of its own. Where the output is no terminal, the
sequences are taken out of it; `unstyled` does that.
-/

namespace UnderscoreLint.Text

/-- Whether a letter is one of the characters from `low` to `high`. -/
def isBetween (low high : Char) (l : Letter) : Bool :=
  l.char?.any fun c => decide (low ≤ c) && decide (c ≤ high)

/-- Whether a letter may stand among the parameters of a sequence. -/
def isStyleParameter (l : Letter) : Bool :=
  isBetween '0' '?' l

/-- Whether a letter may stand between the parameters and the end of a sequence. -/
def isStyleIntermediate (l : Letter) : Bool :=
  isBetween ' ' '/' l

/-- Whether a letter may end a sequence. -/
def isStyleEnd (l : Letter) : Bool :=
  isBetween '@' '~' l

/-- What follows a sequence whose parameters start here; nothing if there is no sequence. -/
def afterStyle? (ls : List Letter) : Option (List Letter) :=
  match (ls.dropWhile isStyleParameter).dropWhile isStyleIntermediate with
  | [] => none
  | l :: rest => if isStyleEnd l then some rest else none

theorem length_lt_of_afterStyle? {ls rest : List Letter} (h : afterStyle? ls = some rest) :
    rest.length < ls.length := by
  have le : ((ls.dropWhile isStyleParameter).dropWhile isStyleIntermediate).length ≤ ls.length :=
    ((List.dropWhile_sublist _).trans (List.dropWhile_sublist _)).length_le
  unfold afterStyle? at h
  split at h
  · cases h
  · rename_i l after e
    rw [e] at le
    split at h
    · cases h
      exact Nat.lt_of_succ_le le
    · cases h

/-- The letters without the styling sequences among them. -/
def unstyledLetters : List Letter → List Letter
  | [] => []
  | .char '\x1b' :: .char '[' :: ls =>
    match _h : afterStyle? ls with
    | some rest => unstyledLetters rest
    | none => .char '\x1b' :: unstyledLetters (.char '[' :: ls)
  | l :: ls => l :: unstyledLetters ls
termination_by ls => ls.length
decreasing_by
  · have := length_lt_of_afterStyle? _h
    simp
    omega
  · simp
  · simp

/-- The text without its styling sequences. -/
def unstyled (t : Text) : Text :=
  ⟨unstyledLetters t.letters⟩

end UnderscoreLint.Text
