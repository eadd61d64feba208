import UnderscoreLint.Main
import UnderscoreLint.Session
import UnderscoreLint.Proofs.Runs
import UnderscoreLint.Proofs.Traversal
import UnderscoreLint.Proofs.Place
import UnderscoreLint.Proofs.Enrolment
import UnderscoreLint.Proofs.Surroundings
import UnderscoreLint.Proofs.EnrolledRun
import UnderscoreLint.Proofs.ScopeRestoration
import UnderscoreLint.Proofs.LibraryMembers
import UnderscoreLint.Proofs.RuleIndependence
import UnderscoreLint.Proofs.LintOutcome
import UnderscoreLint.Proofs.Address
import UnderscoreLint.Proofs.UniqueFindings
import UnderscoreLint.Proofs.Resemblance
import UnderscoreLint.Proofs.Siblings
import UnderscoreLint.Proofs.KeyOrder
import UnderscoreLint.Proofs.SourcePositions
import UnderscoreLint.Proofs.Gaps
import UnderscoreLint.Proofs.Severities
import UnderscoreLint.Proofs.WellNested
import UnderscoreLint.Proofs.FileByFile
import UnderscoreLint.Proofs.Loading
import UnderscoreLint.Proofs.CheckedSettings
import UnderscoreLint.Proofs.Numerals
import UnderscoreLint.Proofs.PorcelainReading
import UnderscoreLint.Proofs.Tallies
import UnderscoreLint.Proofs.UntoldErrors
import UnderscoreLint.Proofs.LoadedTrees
import UnderscoreLint.Proofs.AsciiDocuments
import UnderscoreLint.Proofs.WritableReports
import UnderscoreLint.Proofs.ExitCodes
import UnderscoreLint.Proofs.ParametersAndLocals
import UnderscoreLint.Proofs.JsonStrings
import UnderscoreLint.Proofs.JsonNumbers
import UnderscoreLint.Proofs.JsonReading
import UnderscoreLint.Proofs.PorcelainLines
import UnderscoreLint.Proofs.Reach
import UnderscoreLint.Proofs.ShownWords
import UnderscoreLint.Proofs.DistinctKeys
import UnderscoreLint.Proofs.ConfigSchema
import UnderscoreLint.Proofs.RefusedDocuments
import UnderscoreLint.Proofs.Recast
import UnderscoreLint.Proofs.EventNames
import UnderscoreLint.Proofs.Multimap
