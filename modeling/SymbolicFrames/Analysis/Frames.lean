-- The result of an analysis: the frames before and after every instruction that is reached.
import SymbolicFrames.Analysis.Replay

namespace SymbolicFrames

/-- One place for each instruction of the method, empty where none was recorded. -/
structure Frames where
  steps : Array (Option Step)
deriving DecidableEq

namespace Frames

def ofSize (instructions : Nat) : Frames := ⟨Array.replicate instructions none⟩

/-- Records steps for consecutive instructions, over what was recorded for them before. -/
def record (frames : Frames) (start : Index) : List Step → Frames
  | [] => frames
  | step :: rest =>
    Frames.record ⟨frames.steps.setIfInBounds start (some step)⟩ (start + 1) rest

def step? (frames : Frames) (index : Index) : Option Step := frames.steps[index]?.join

def before? (frames : Frames) (index : Index) : Option Frame :=
  (frames.step? index).map Step.before

/-- The frame before any branch is followed. -/
def after? (frames : Frames) (index : Index) : Option Frame :=
  (frames.step? index).map Step.after

/-- Number of instructions, reached or not. -/
def size (frames : Frames) : Nat := frames.steps.size

def isEmpty (frames : Frames) : Bool := frames.steps.isEmpty

/-- The instructions that are reached, in order. -/
def reachable (frames : Frames) : List Index :=
  (List.range frames.size).filter fun index => (frames.step? index).isSome

end Frames

end SymbolicFrames
