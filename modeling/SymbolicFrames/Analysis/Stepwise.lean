-- The analysis told step by step. Every instruction of a block is looked up by its index, the
-- handlers are entered with the frame before it, and the frames before and after it are written
-- down in two columns, one before the instruction is executed and the other after. Whatever
-- could be missing, a block of the graph or an instruction of the method, is asked for and
-- answered with a failure if it is not there.
import SymbolicFrames.Analysis.Run
import SymbolicFrames.Opcode.Execute

namespace SymbolicFrames

/-! ## Columns -/

/-- The frames before and after the instructions, each kind in a column of its own with one
place for each instruction. -/
structure Columns where
  before : Array (Option Frame)
  after : Array (Option Frame)
deriving DecidableEq

namespace Columns

def ofSize (instructions : Nat) : Columns :=
  { before := Array.replicate instructions none, after := Array.replicate instructions none }

def writeBefore (columns : Columns) (index : Index) (frame : Frame) : Columns :=
  { columns with before := columns.before.setIfInBounds index (some frame) }

def writeAfter (columns : Columns) (index : Index) (frame : Frame) : Columns :=
  { columns with after := columns.after.setIfInBounds index (some frame) }

def before? (columns : Columns) (index : Index) : Option Frame := columns.before[index]?.join

def after? (columns : Columns) (index : Index) : Option Frame := columns.after[index]?.join

/-- Number of instructions, reached or not. -/
def size (columns : Columns) : Nat := columns.before.size

def isEmpty (columns : Columns) : Bool := columns.before.isEmpty

/-- The instructions with a frame before them, in order. -/
def reachable (columns : Columns) : List Index :=
  (List.range columns.size).filter fun index => (columns.before? index).isSome

end Columns

/-- The limit, if so many visits are more than it allows. -/
def Settings.exceeded? (s : Settings) (visits : Nat) : Option Nat :=
  s.visitLimit.filter fun limit => decide (limit < visits)

namespace Problem

/-! ## One visit -/

/-- Enters every handler among the edges with the frame, one after the other. -/
def enterHandlers (problem : Problem) (edges : List Edge) (w : Worklist) (frame : Frame) :
    Report Failure Worklist :=
  w.deliver (Replay.toHandlers problem.settings.defaultException edges frame)

/-- Goes through the instructions of a block from a frame, and leaves the frame after the last
of them. -/
def goThrough (problem : Problem) (edges : List Edge) (frame : Frame) (w : Worklist)
    (columns : Columns) : List Index → Report Failure (Frame × Worklist × Columns)
  | [] => .success (frame, w, columns)
  | index :: rest =>
    match problem.method.instructions[index]? with
    | none => .failure (.graph (.pastMethod index))
    | some i =>
      (problem.enterHandlers edges w frame).andThen fun entered =>
        let noted := columns.writeBefore index frame
        match frame.executeOpcode i.opcode with
        | .error fault => .failure (.instruction index i fault)
        | .ok next =>
          problem.goThrough edges next entered (noted.writeAfter index next) rest

/-- How far the stepwise analysis has got. -/
structure Stage where
  worklist : Worklist
  columns : Columns
  visits : Nat

/-- Visits a block: its instructions, then the handlers once more, then the normal edges. -/
def visitStepwise (problem : Problem) (s : Stage) (id : BlockId) (frame : Frame)
    (waiting : Worklist) : Report Failure Stage :=
  match problem.settings.exceeded? (s.visits + 1) with
  | some limit => .failure (.visitLimit limit)
  | none =>
    match problem.graph.block? id with
    | none => .failure (.graph (.unknownBlock id))
    | some block =>
      let edges := problem.graph.successors id
      let visited :=
        (problem.goThrough edges frame waiting s.columns block.indices).andThen
          fun (exit, passed, columns) =>
            (problem.enterHandlers edges passed exit).andThen fun entered =>
              (entered.deliver (Replay.toSuccessors edges exit)).andThen fun next =>
                .success { worklist := next, columns, visits := s.visits + 1 }
      visited.after [.visiting id frame]

theorem goThrough_same_or_lower {problem : Problem} {edges : List Edge} {frame exit : Frame}
    {w next : Worklist} {columns columns' : Columns} {indices : List Index}
    (h : (problem.goThrough edges frame w columns indices).result
      = .ok (exit, next, columns')) :
    next = w ∨ Worklist.Lower next w := by
  induction indices generalizing frame w columns with
  | nil =>
    cases h
    exact .inl rfl
  | cons index rest ih =>
    rw [goThrough] at h
    split at h
    · contradiction
    · obtain ⟨entered, hentered, hrest⟩ := Report.andThen_eq_ok h
      split at hrest
      · contradiction
      · exact Worklist.same_or_lower_trans (ih hrest) (Worklist.deliver_same_or_lower hentered)

theorem visitStepwise_same_or_lower {problem : Problem} {s next : Stage} {id : BlockId}
    {frame : Frame} {waiting : Worklist}
    (h : (problem.visitStepwise s id frame waiting).result = .ok next) :
    next.worklist = waiting ∨ Worklist.Lower next.worklist waiting := by
  unfold visitStepwise at h
  split at h
  · contradiction
  · split at h
    · contradiction
    · obtain ⟨⟨exit, passed, columns⟩, hthrough, hexit⟩ := Report.andThen_eq_ok h
      obtain ⟨entered, hentered, hnormal⟩ := Report.andThen_eq_ok hexit
      obtain ⟨left, hleft, hnext⟩ := Report.andThen_eq_ok hnormal
      cases hnext
      exact Worklist.same_or_lower_trans (Worklist.deliver_same_or_lower hleft)
        (Worklist.same_or_lower_trans (Worklist.deliver_same_or_lower hentered)
          (goThrough_same_or_lower hthrough))

/-! ## All visits -/

/-- Takes blocks off the worklist until there is none. -/
def runStepwise (problem : Problem) (s : Stage) : Report Failure Columns :=
  match _hpop : s.worklist.pop? with
  | none => ⟨[.finished problem.method.text s.visits], .ok s.columns⟩
  | some (id, frame, waiting) =>
    match _hnext : (problem.visitStepwise s id frame waiting).result with
    | .error failure => ⟨(problem.visitStepwise s id frame waiting).log, .error failure⟩
    | .ok next =>
      (problem.runStepwise next).after (problem.visitStepwise s id frame waiting).log
termination_by (s.worklist.blanks, s.worklist.rank, s.worklist.queue.length)
decreasing_by exact Worklist.decreases_of_pop? _hpop (visitStepwise_same_or_lower _hnext)

def outcomeStepwise (problem : Problem) : Report Failure Columns :=
  match problem.graph.fault? problem.method.instructions.length with
  | some fault => .failure (.graph fault)
  | none =>
    match problem.method.entryFrame with
    | .error fault => .failure (.methodEntry fault)
    | .ok frame =>
      ((Worklist.ofSize problem.graph.size).deliver [⟨Graph.entry, frame⟩]).andThen fun w =>
        problem.runStepwise
          { worklist := w
            columns := Columns.ofSize problem.method.instructions.length
            visits := 0 }

end Problem

/-- The columns of a method, or why there are none. -/
def analyzeStepwise (settings : Settings) (method : Method) (graph : Graph) :
    Report AnalysisError Columns :=
  let report := Problem.outcomeStepwise ⟨settings, method, graph⟩
  { log := .started method.text method.instructions.length graph.size :: report.log
    result := report.result.mapError fun failure => ⟨method.text, failure⟩ }

end SymbolicFrames
