import SuiteMigration.FileSystem.Listing
import SuiteMigration.Json.Distinct
import SuiteMigration.Main
import SuiteMigration.Proofs.Outline.Flattening
import SuiteMigration.Proofs.Locator.Agreement
import SuiteMigration.Proofs.FileSystem.FileName
import SuiteMigration.Proofs.FileSystem.Keeping
import SuiteMigration.Proofs.Migration.Outputs
import SuiteMigration.Proofs.Migration.LastWrite
import SuiteMigration.Proofs.Pattern.Language
import SuiteMigration.Proofs.Test.Calls
import SuiteMigration.Proofs.Test.Emitting
import SuiteMigration.Proofs.Test.Scoping
import SuiteMigration.Proofs.Test.DriverCalls
import SuiteMigration.Proofs.Pattern.Lockstep
import SuiteMigration.Proofs.Pattern.LiteralSearch
import SuiteMigration.Proofs.Page.ElementCall
import SuiteMigration.Proofs.Page.LiteralContents
import SuiteMigration.Proofs.Outline.Bare
import SuiteMigration.Proofs.Outline.Joining
import SuiteMigration.Proofs.Outline.LayoutFree
import SuiteMigration.Proofs.Page.Queries
import SuiteMigration.Proofs.Page.Reachable
import SuiteMigration.Proofs.Outline.Tiling
import SuiteMigration.Proofs.Test.Assertions
import SuiteMigration.Proofs.Migration.Accounting
import SuiteMigration.Proofs.Outline.Scan.Bodies
import SuiteMigration.Proofs.Outline.Scan.Members
import SuiteMigration.Proofs.Outline.Scan.Units
import SuiteMigration.Proofs.FileSystem.Moves
import SuiteMigration.Proofs.FileSystem.Walk
import SuiteMigration.Proofs.FileSystem.WellFormed
import SuiteMigration.Proofs.FileSystem.Remaking
import SuiteMigration.Proofs.Locator.Denotation
import SuiteMigration.Proofs.Output.LowerCamel
import SuiteMigration.Proofs.Page.Members
import SuiteMigration.Proofs.Test.Instances
import SuiteMigration.Proofs.Outline.ClassName
import SuiteMigration.Proofs.Migration.OutputPath
import SuiteMigration.Proofs.Migration.SourceWays
import SuiteMigration.Proofs.Migration.Lockstep
import SuiteMigration.Proofs.Migration.Repetition
import SuiteMigration.Proofs.FileSystem.Agreement
import SuiteMigration.Proofs.Migration.Dependence
import SuiteMigration.Proofs.FileSystem.Making
import SuiteMigration.Proofs.Migration.Footprint
import SuiteMigration.Proofs.Migration.Entries
import SuiteMigration.Proofs.Migration.Listed
import SuiteMigration.Proofs.TestRun.Discovery
import SuiteMigration.Proofs.Locator.Argument
import SuiteMigration.Proofs.Locator.Annotation
import SuiteMigration.Proofs.Page.NamedCall
import SuiteMigration.Proofs.Page.FillValue
import SuiteMigration.Proofs.Page.Chain
import SuiteMigration.Proofs.Test.SingleCall
import SuiteMigration.Proofs.Test.PropertyLookup
import SuiteMigration.Proofs.Locator.Redeclaration
import SuiteMigration.Proofs.Test.TopLevel
import SuiteMigration.Proofs.Locator.History
import SuiteMigration.Proofs.Test.References
import SuiteMigration.Proofs.Output.Specifier
import SuiteMigration.Proofs.Test.Rendering
import SuiteMigration.Proofs.Page.Losses
import SuiteMigration.Proofs.Migration.Collecting
import SuiteMigration.Proofs.CommandLine.Answering
import SuiteMigration.Proofs.TestRun.Summing
import SuiteMigration.Proofs.Test.Unwrapping
import SuiteMigration.Proofs.Outline.SurplusBrace
import SuiteMigration.Proofs.Output.StringLiteral
