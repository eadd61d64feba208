/-!
# Paths

A path is a text of names divided by slashes. `Path.normalise` drops what makes no
difference to where a path leads: single dots, and doubled and trailing slashes. Two dots
stay, since what they lead to depends on the files. The empty path is the current
directory.
-/

namespace UnderscoreLint.Path

/-- The name of a directory inside of itself. -/
def here : String := "."

/-- The name of the directory around a directory. -/
def up : String := ".."

/-- The texts between slashes. -/
def pieces (path : String) : List String :=
  (path.toList.splitOn '/').map String.ofList

/-- The names that a path is made of. -/
def names (path : String) : List String :=
  (pieces path).filter fun name => name ≠ "" ∧ name ≠ here

/-- The slashes that a path starts with, as far as they matter: two are kept apart from one,
and three or more are one. -/
def root (path : String) : String :=
  match path.toList.takeWhile (· = '/') with
  | [] => ""
  | [_, _] => "//"
  | _ => "/"

/-- The shortest way to write a path. -/
def normalise (path : String) : String :=
  let written := root path ++ "/".intercalate (names path)
  if written = "" then here else written

/-- Whether a path has a null character in it; no path on disk has. -/
def hasNull (path : String) : Bool :=
  path.toList.contains '\x00'

/-- The most bytes that a name in a path may have. -/
def longestName : Nat := 255

/-- The most bytes that a path may have. -/
def longestPath : Nat := 4095

/-- The last name of a path; the current directory has none. -/
def lastName (path : String) : String :=
  (names path).getLast?.getD ""

end UnderscoreLint.Path
