-- A block executed from the frame on its entry, instruction by instruction, and what that
-- sends on to other blocks.
import SymbolicFrames.Analysis.Worklist
import SymbolicFrames.Frame.Execute
import SymbolicFrames.Graph.Basic

namespace SymbolicFrames

/-- The frames before and after an instruction. -/
structure Step where
  before : Frame
  after : Frame
deriving DecidableEq

/-- How far a run of instructions got. -/
structure Replay where
  /-- The instructions that were executed, in order. -/
  steps : List Step
  /-- The frame after the last of them. -/
  exit : Frame
  /-- The instruction that could not be executed on that frame, if any. -/
  fault : Option (Instruction × Fault)
deriving DecidableEq

namespace Replay

def run (frame : Frame) : List Instruction → Replay
  | [] => { steps := [], exit := frame, fault := none }
  | i :: rest =>
    match frame.execute i with
    | .error fault => { steps := [], exit := frame, fault := some (i, fault) }
    | .ok next =>
      let others := run next rest
      { others with steps := ⟨frame, next⟩ :: others.steps }

/-- The frames in which an exception can arise: before each instruction that was tried, and
at the end. -/
def exposed (r : Replay) : List Frame := r.steps.map Step.before ++ [r.exit]

/-- The handlers a frame is sent to. -/
def toHandlers (defaultException : ClassName) (edges : List Edge) (frame : Frame) :
    List Delivery :=
  edges.filterMap fun edge =>
    match edge.kind with
    | .normal => none
    | .exception caught =>
      some ⟨edge.target, frame.handler (.object (caught.getD defaultException))⟩

/-- The blocks that control reaches at the end. -/
def toSuccessors (edges : List Edge) (frame : Frame) : List Delivery :=
  edges.filterMap fun edge =>
    if edge.kind = .normal then some ⟨edge.target, frame⟩ else none

/-- Everything that leaves the block: each exposed frame to every handler, and last, if the
end was reached, the frame there along the normal edges. -/
def deliveries (defaultException : ClassName) (edges : List Edge) (r : Replay) :
    List Delivery :=
  r.exposed.flatMap (toHandlers defaultException edges)
    ++ if r.fault.isNone then toSuccessors edges r.exit else []

end Replay

end SymbolicFrames
