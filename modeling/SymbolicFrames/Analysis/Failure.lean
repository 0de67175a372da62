-- Why a method cannot be analyzed. There are no frames for a method that fails.
import SymbolicFrames.Fault
import SymbolicFrames.Graph.Validity

namespace SymbolicFrames

inductive Failure where
  /-- An instruction cannot be executed. -/
  | instruction (index : Index) (instruction : Instruction) (fault : Fault)
  /-- A frame that reaches a block cannot be joined with the one recorded there. -/
  | blockEntry (block : BlockId) (fault : Fault)
  /-- The graph does not fit the method. -/
  | graph (fault : GraphFault)
  /-- There were blocks left to visit after so many visits. -/
  | visitLimit (limit : Nat)
  /-- The arguments do not fit into the locals. -/
  | methodEntry (fault : Fault)
deriving DecidableEq

def Failure.message : Failure → String
  | .instruction index i fault =>
    String.join ["instruction ", indexText index, " (", i.text, "): ", fault.message]
  | .blockEntry block fault =>
    String.join ["cannot merge frames entering ", blockText block, ": ", fault.message]
  | .graph fault => String.join ["invalid control flow graph: ", fault.message]
  | .visitLimit limit => String.join ["no fixed point after ", toString limit, " block visits"]
  | .methodEntry fault => String.join ["cannot build entry frame: ", fault.message]

/-- A failure with the method it befell. -/
structure AnalysisError where
  method : String
  failure : Failure
deriving DecidableEq

def AnalysisError.message (e : AnalysisError) : String :=
  String.join [e.method, ": ", e.failure.message]

end SymbolicFrames
