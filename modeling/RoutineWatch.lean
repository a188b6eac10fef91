import RoutineWatch.Main
import RoutineWatch.Proofs.Ordered.Map
import RoutineWatch.Proofs.Json.Natural
import RoutineWatch.Proofs.Json.Quote
import RoutineWatch.Proofs.Json.Spelling
import RoutineWatch.Proofs.Json.Printed
import RoutineWatch.Proofs.Json.Members
import RoutineWatch.Proofs.Registry.Stored
import RoutineWatch.Proofs.Extraction.Mentions
import RoutineWatch.Proofs.Extraction.Tables
import RoutineWatch.Proofs.Extraction.Registry
import RoutineWatch.Proofs.Git.Changes
import RoutineWatch.Proofs.Git.Position
import RoutineWatch.Proofs.Json.OneLine
import RoutineWatch.Proofs.Matrix.Run
import RoutineWatch.Proofs.Extraction.SharedChange
import RoutineWatch.Proofs.FileTree.Growth
import RoutineWatch.Proofs.Git.QuietRefs
import RoutineWatch.Proofs.Path.Parent
import RoutineWatch.Proofs.Text.RoundTrip
import RoutineWatch.Proofs.FileTree.Walk
import RoutineWatch.Proofs.FileTree.Paths
import RoutineWatch.Proofs.FileTree.Writing
import RoutineWatch.Proofs.ApiList.Artifacts
import RoutineWatch.Proofs.ApiList.Run
import RoutineWatch.Proofs.ApiList.Failure
import RoutineWatch.Proofs.ApiList.Sources
import RoutineWatch.Proofs.ApiList.Reopening
import RoutineWatch.Proofs.ApiList.Regeneration
import RoutineWatch.Proofs.Extraction.Renaming
import RoutineWatch.Proofs.Tool.Recording
import RoutineWatch.Proofs.Program.Ending
import RoutineWatch.Proofs.Baseline.Course
import RoutineWatch.Proofs.Baseline.Protocol
import RoutineWatch.Proofs.Baseline.Output
import RoutineWatch.Proofs.ApiList.Verdict
import RoutineWatch.Proofs.Extraction.PublicFunctions
import RoutineWatch.Proofs.Registry.Tolerance
import RoutineWatch.Proofs.Extraction.Fields
import RoutineWatch.Proofs.Matrix.Line
import RoutineWatch.Proofs.RoutineName.Decomposition
import RoutineWatch.Proofs.Git.Difference
import RoutineWatch.Proofs.Diff.Layout
import RoutineWatch.Proofs.Diff.Frontier
import RoutineWatch.Proofs.Text.Lines
import RoutineWatch.Proofs.Diff.Search
import RoutineWatch.Proofs.Diff.Tidy
import RoutineWatch.Proofs.Diff.Idle
import RoutineWatch.Proofs.Diff.Blocks
import RoutineWatch.Proofs.Diff.Hunks
import RoutineWatch.Proofs.Diff.Patch
import RoutineWatch.Proofs.Diff.PatchText
import RoutineWatch.Proofs.Diff.Bodies
import RoutineWatch.Proofs.Diff.Headers
import RoutineWatch.Proofs.Diff.Written
import RoutineWatch.Proofs.Drift.Patch
import RoutineWatch.Proofs.Drift.Coloring
import RoutineWatch.Proofs.Drift.Content
import RoutineWatch.Proofs.Text.Lossy
import RoutineWatch.Proofs.Text.Cuts
import RoutineWatch.Proofs.Path.Normal
import RoutineWatch.Proofs.Path.Joining
import RoutineWatch.Proofs.Path.Ancestors
import RoutineWatch.Proofs.Baseline.Newest
import RoutineWatch.Proofs.FileTree.Descent
import RoutineWatch.Proofs.SourceScan.Reading
import RoutineWatch.Proofs.SourceScan.Loading
import RoutineWatch.Proofs.Extraction.NormalSources
import RoutineWatch.Proofs.Registry.Respelling
import RoutineWatch.Proofs.Json.Brackets
import RoutineWatch.Proofs.Json.Locality
import RoutineWatch.Proofs.Json.Extent
import RoutineWatch.Proofs.Json.SpelledArray
import RoutineWatch.Proofs.Baseline.Listing
import RoutineWatch.Proofs.Workspace.Discovery
import RoutineWatch.Proofs.Toml.Keys
import RoutineWatch.Proofs.Config.Document
