import Vetting.Files.Manifest
import Vetting.Host.Start
import Vetting.Main
import Vetting.Score.Exact
import Vetting.Validation.Rehearsal
import Vetting.Proofs.Files.Entries
import Vetting.Proofs.Files.PathNames
import Vetting.Proofs.Files.Ways
import Vetting.Proofs.Files.Growth
import Vetting.Proofs.Files.Relocation
import Vetting.Proofs.Files.Execution
import Vetting.Proofs.Promotion.SafeNames
import Vetting.Proofs.Promotion.Steps
import Vetting.Proofs.Promotion.Site
import Vetting.Proofs.Promotion.Staging
import Vetting.Proofs.Promotion.Installing
import Vetting.Proofs.Promotion.Commit
import Vetting.Proofs.Promotion.ReportFile
import Vetting.Proofs.Promotion.GateRun
import Vetting.Proofs.Promotion.Rejection
import Vetting.Proofs.Files.Setup
import Vetting.Proofs.Files.Tracing
import Vetting.Proofs.Files.Naming
import Vetting.Proofs.Promotion.Validation
import Vetting.Proofs.Promotion.SortedEntries
import Vetting.Proofs.Promotion.Placement
import Vetting.Proofs.Promotion.FreshNames
import Vetting.Proofs.Promotion.Acceptance
import Vetting.Proofs.Json.Reading
import Vetting.Proofs.Promotion.ReportText
import Vetting.Proofs.Promotion.Coherence
import Vetting.Proofs.Promotion.DraftFiles
import Vetting.Proofs.Promotion.Presence
import Vetting.Proofs.Text.Lowering
import Vetting.Proofs.Promotion.Forbidden
import Vetting.Proofs.Promotion.Unreported
import Vetting.Proofs.Promotion.Frame
import Vetting.Proofs.Promotion.ReservedNames
import Vetting.Proofs.Validation.Paths
import Vetting.Proofs.Validation.Counting
import Vetting.Proofs.Validation.Batches
import Vetting.Proofs.Files.Interleaving
import Vetting.Proofs.Files.Regions
import Vetting.Proofs.Promotion.Securing
import Vetting.Proofs.Promotion.Precinct
import Vetting.Proofs.Promotion.Phases
import Vetting.Proofs.Promotion.Gathering
import Vetting.Proofs.Promotion.Exchanging
import Vetting.Proofs.Promotion.Committing
import Vetting.Proofs.Promotion.Concurrency
import Vetting.Proofs.Promotion.Switching
import Vetting.Proofs.Score.Fractions
import Vetting.Proofs.Score.Blending
import Vetting.Proofs.Heuristic.Thresholds
import Vetting.Proofs.Validation.Scores
import Vetting.Proofs.Validation.WithoutTools
import Vetting.Proofs.Text.Categories
import Vetting.Proofs.Promotion.SafePaths
import Vetting.Proofs.Validation.Outcomes
import Vetting.Proofs.Markup.Grammar
import Vetting.Proofs.Markup.Tree
import Vetting.Proofs.Files.Alike
import Vetting.Proofs.Promotion.NormalForms
import Vetting.Proofs.Promotion.DraftEntries
import Vetting.Proofs.Promotion.DraftWalk
import Vetting.Proofs.Promotion.CheckLines
import Vetting.Proofs.Promotion.ValidRules
import Vetting.Proofs.Promotion.Warnings
import Vetting.Proofs.Text.AnyCase
import Vetting.Proofs.Pattern.Search
import Vetting.Proofs.Text.FinalSigma
import Vetting.Proofs.Promotion.Occurrences
import Vetting.Proofs.Markup.Source
import Vetting.Proofs.Promotion.AppManifests
import Vetting.Proofs.Tool.Stubs
import Vetting.Proofs.Tool.Streams
import Vetting.Proofs.Tool.OtherFiles
import Vetting.Proofs.Tool.PlatformNames
import Vetting.Proofs.Heuristic.StringLiterals
import Vetting.Proofs.Promotion.ReportWriting
import Vetting.Proofs.Markup.Surroundings
import Vetting.Proofs.Heuristic.NamespacePrefixes
import Vetting.Proofs.Pattern.Spans
import Vetting.Proofs.Heuristic.MethodLines
import Vetting.Proofs.Heuristic.InterfaceTexts
import Vetting.Proofs.Heuristic.PlainInterfaces
import Vetting.Proofs.Heuristic.TypeAnnotations
import Vetting.Proofs.Script.Walk
import Vetting.Proofs.Script.Illegality
import Vetting.Proofs.Score.Coverage
import Vetting.Proofs.Score.PropertyListings
import Vetting.Proofs.Heuristic.ManifestSections
import Vetting.Proofs.Host.Snapshots
import Vetting.Proofs.Json.Records
import Vetting.Proofs.Settings.Documents
import Vetting.Proofs.Settings.Layers
