import SymbolicFrames.Analysis.Run
import SymbolicFrames.Analysis.Stepwise
import SymbolicFrames.Descriptor.Reader
import SymbolicFrames.Folding.Arity
import SymbolicFrames.Opcode.Execute
import SymbolicFrames.Proofs.ArrayTypes
import SymbolicFrames.Proofs.Convergence
import SymbolicFrames.Proofs.DeadCode
import SymbolicFrames.Proofs.DescriptorPrefixes
import SymbolicFrames.Proofs.DescriptorTexts
import SymbolicFrames.Proofs.EntryLayout
import SymbolicFrames.Proofs.FoldingLiterals
import SymbolicFrames.Proofs.IntegerFolding
import SymbolicFrames.Proofs.JoinOrder
import SymbolicFrames.Proofs.LocalStores
import SymbolicFrames.Proofs.Locality
import SymbolicFrames.Proofs.MergeReports
import SymbolicFrames.Proofs.Monotonicity
import SymbolicFrames.Proofs.NameParts
import SymbolicFrames.Proofs.OrderDependence
import SymbolicFrames.Proofs.Paths
import SymbolicFrames.Proofs.RepeatedEdges
import SymbolicFrames.Proofs.SlotShuffles
import SymbolicFrames.Proofs.StackDepth
import SymbolicFrames.Proofs.Trees
import SymbolicFrames.Proofs.VisitLimits
import SymbolicFrames.Proofs.WidePairs
import SymbolicFrames.Proofs.Widths
import SymbolicFrames.Proofs.WorklistCalls
import SymbolicFrames.Analysis.Stepwise
import SymbolicFrames.Proofs.Opcodes
import SymbolicFrames.Proofs.Stepwise
