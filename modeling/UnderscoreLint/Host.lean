import UnderscoreLint.Files
import UnderscoreLint.Limits

/-!
# Hosts

A run depends on the machine it takes place on: on the files that can be seen there, and on how
much room there is for what is nested. The words for what is wrong with a YAML text are those of
whoever reads YAML on that machine.
-/

namespace UnderscoreLint

/-- The machine that a run takes place on. -/
structure Host extends Files where
  limits : Limits := .usual
  /-- What is said about the malformed YAML text of a file, by its path and its bytes. -/
  complaint : String → ByteArray → String := fun _ _ => "malformed text"

end UnderscoreLint
