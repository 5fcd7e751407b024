import CodeProfile.Digest.Sha256
import CodeProfile.FileTree
import CodeProfile.Json.Reader
import CodeProfile.Main
import CodeProfile.Program.Json
import CodeProfile.Session
import CodeProfile.Settings.Json
import CodeProfile.SyntaxTree.Builder
import CodeProfile.Proofs.Lowering.Completeness
import CodeProfile.Proofs.Tree.Lossless
import CodeProfile.Proofs.Session.Transparency
import CodeProfile.Proofs.Session.Failure
import CodeProfile.Proofs.Session.Pacing
import CodeProfile.Proofs.Complexity.Comprehensions
import CodeProfile.Proofs.Complexity.ProgramTime
import CodeProfile.Proofs.Complexity.Shape
import CodeProfile.Proofs.Cost.Leaves
import CodeProfile.Proofs.Cost.OrderInvariance
import CodeProfile.Proofs.Detection.Counters
import CodeProfile.Proofs.Comments.Inert
import CodeProfile.Proofs.Session.Admission
import CodeProfile.Proofs.Profiling.Faults
import CodeProfile.Proofs.Library.Mistaken
import CodeProfile.Proofs.Library.Standard
import CodeProfile.Proofs.Complexity.DominantOperations
import CodeProfile.Proofs.Complexity.Space
import CodeProfile.Proofs.Complexity.VariableBounds
import CodeProfile.Proofs.Complexity.LoopAdvice
import CodeProfile.Proofs.Cost.Merged
import CodeProfile.Proofs.Complexity.LoopPaths
import CodeProfile.Proofs.Metrics.CommentLines
import CodeProfile.Proofs.Metrics.ControlNesting
import CodeProfile.Proofs.Detection.MainLine
import CodeProfile.Proofs.Text.Budget
import CodeProfile.Proofs.Profiling.Budgets
import CodeProfile.Proofs.Detection.ParadigmShares
import CodeProfile.Proofs.Profiling.ReadinessOrder
import CodeProfile.Proofs.Library.Subpackages
import CodeProfile.Proofs.Library.Dependencies
import CodeProfile.Proofs.Library.Renaming
import CodeProfile.Proofs.Profiling.Agreement
import CodeProfile.Proofs.Profiling.Colours
import CodeProfile.Proofs.Settings.Nearest
import CodeProfile.Proofs.Detection.Purposes
import CodeProfile.Proofs.Tree.Positions
