import UnderscoreLint.Text

/-!
# Blank text

The characters that leave no mark on a line (Unicode white space without the
zero-width characters), and the texts made of nothing else. A rule id must have
at least one character that is not blank.
-/

namespace UnderscoreLint.Text

/-- Whether `c` is white space: the separators U+0009 to U+000D and U+001C to
U+0020, the next-line mark, and the spaces of Unicode. Zero-width characters are
not blank. -/
def isBlankChar (c : Char) : Bool :=
  let n := c.toNat
  (0x0009 ≤ n && n ≤ 0x000d) || (0x001c ≤ n && n ≤ 0x0020) || n == 0x0085 || n == 0x00a0 ||
    n == 0x1680 || (0x2000 ≤ n && n ≤ 0x200a) || n == 0x2028 || n == 0x2029 || n == 0x202f ||
    n == 0x205f || n == 0x3000

/-- Whether a letter is white space. -/
def isBlankLetter (l : Letter) : Bool :=
  l.char?.any isBlankChar

/-- Whether every letter of `t` is blank; the empty text is blank. -/
def isBlank (t : Text) : Bool :=
  t.letters.all isBlankLetter

end UnderscoreLint.Text
