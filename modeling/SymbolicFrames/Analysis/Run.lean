-- The analysis itself. Blocks are visited one after the other, each from the frame recorded
-- on its entry, and what leaves a block is joined into the frames of others, until no frame
-- changes any more. The run ends without a limit because every visit either changes no frame,
-- and then one block less waits, or leaves fewer changes to come.
import SymbolicFrames.Analysis.Frames
import SymbolicFrames.Analysis.Method

namespace SymbolicFrames

/-- What is analyzed, and how. -/
structure Problem where
  settings : Settings
  method : Method
  graph : Graph

namespace Problem

/-! ## One visit -/

def replay (problem : Problem) (block : Block) (frame : Frame) : Replay :=
  Replay.run frame (block.slice problem.method.instructions)

/-- The failure that an instruction of a block causes, if one does. -/
def faultOf (block : Block) (r : Replay) : Option Failure :=
  r.fault.map fun (i, fault) => .instruction (block.start + r.steps.length) i fault

/-- Delivers all that leaves a block. A frame that cannot be joined on the way counts before
the instruction that cannot be executed. -/
def deliverAll (problem : Problem) (node : Node) (r : Replay) (w : Worklist) :
    Report Failure Worklist :=
  (w.deliver (r.deliveries problem.settings.defaultException node.edges)).andThen fun next =>
    match faultOf node.block r with
    | some failure => .failure failure
    | none => .success next

theorem deliverAll_same_or_lower {problem : Problem} {node : Node} {r : Replay} {w next : Worklist}
    (h : (problem.deliverAll node r w).result = .ok next) : next = w ∨ Worklist.Lower next w := by
  unfold deliverAll Report.andThen at h
  split at h
  · rename_i delivered hdelivered
    simp only [Report.after] at h
    split at h
    · contradiction
    · simp only [Report.success, Except.ok.injEq] at h
      exact h ▸ Worklist.deliver_same_or_lower hdelivered
  · contradiction

/-- How far an analysis has got. -/
structure Progress where
  worklist : Worklist
  /-- What the latest visit to each block recorded. -/
  frames : Frames
  /-- Number of visits made. -/
  visits : Nat

/-- Visits a block with the frame on its entry, unless the limit is reached. -/
def visit (problem : Problem) (p : Progress) (id : BlockId) (frame : Frame) (waiting : Worklist) :
    Report Failure Progress :=
  match problem.settings.limitReached? p.visits with
  | some limit => .failure (.visitLimit limit)
  | none =>
    match problem.graph.nodes[id]? with
    | none => .failure (.graph (.unknownBlock id))
    | some node =>
      let replayed := problem.replay node.block frame
      let delivered := (problem.deliverAll node replayed waiting).andThen fun next =>
        .success
          { worklist := next
            frames := p.frames.record node.block.start replayed.steps
            visits := p.visits + 1 }
      delivered.after [.visiting id frame]

/-- Visits the block that has waited longest, if any waits. -/
def step? (problem : Problem) (p : Progress) : Option (Report Failure Progress) :=
  p.worklist.pop?.map fun (id, frame, waiting) => problem.visit p id frame waiting

theorem visit_same_or_lower {problem : Problem} {p next : Progress} {id : BlockId} {frame : Frame}
    {waiting : Worklist} (h : (problem.visit p id frame waiting).result = .ok next) :
    next.worklist = waiting ∨ Worklist.Lower next.worklist waiting := by
  unfold visit at h
  split at h
  · contradiction
  · split at h
    · contradiction
    · simp only [Report.after, Report.andThen] at h
      split at h
      · rename_i delivered hdelivered
        simp only [Report.success, Except.ok.injEq] at h
        exact h ▸ deliverAll_same_or_lower hdelivered
      · contradiction

/-- A visit changes some frame, or one block less waits after it. -/
theorem step?_decreases {problem : Problem} {p next : Progress} {report : Report Failure Progress}
    (hstep : problem.step? p = some report) (hnext : report.result = .ok next) :
    Prod.Lex (· < ·) (Prod.Lex (· < ·) (· < ·))
      (next.worklist.blanks, next.worklist.rank, next.worklist.queue.length)
      (p.worklist.blanks, p.worklist.rank, p.worklist.queue.length) := by
  simp only [step?, Option.map_eq_some_iff] at hstep
  obtain ⟨⟨id, frame, waiting⟩, hpop, rfl⟩ := hstep
  exact Worklist.decreases_of_pop? hpop (visit_same_or_lower hnext)

/-! ## All visits -/

/-- Visits blocks until none waits. -/
def run (problem : Problem) (p : Progress) : Report Failure Frames :=
  match _hstep : problem.step? p with
  | none => ⟨[.finished problem.method.text p.visits], .ok p.frames⟩
  | some report =>
    match _hnext : report.result with
    | .error failure => ⟨report.log, .error failure⟩
    | .ok next => (problem.run next).after report.log
termination_by (p.worklist.blanks, p.worklist.rank, p.worklist.queue.length)
decreasing_by exact step?_decreases _hstep _hnext

/-- Nothing recorded and nothing visited yet. -/
def start (problem : Problem) (w : Worklist) : Progress :=
  { worklist := w, frames := Frames.ofSize problem.method.instructions.length, visits := 0 }

/-- The whole analysis: the graph is checked, the frame on entry to the method delivered to
the first block, and then everything follows. -/
def outcome (problem : Problem) : Report Failure Frames :=
  match problem.graph.fault? problem.method.instructions.length with
  | some fault => .failure (.graph fault)
  | none =>
    match problem.method.entryFrame with
    | .error fault => .failure (.methodEntry fault)
    | .ok frame =>
      ((Worklist.ofSize problem.graph.size).deliver [⟨Graph.entry, frame⟩]).andThen fun w =>
        problem.run (problem.start w)

end Problem

/-! ## Methods -/

/-- The frames of a method, or why there are none. -/
def analyze (settings : Settings) (method : Method) (graph : Graph) :
    Report AnalysisError Frames :=
  let report := Problem.outcome ⟨settings, method, graph⟩
  { log := .started method.text method.instructions.length graph.size :: report.log
    result := report.result.mapError fun failure => ⟨method.text, failure⟩ }

/-- The events of one method among several, where a failure only means that it is skipped. -/
def logWithSkip (r : Report AnalysisError Frames) : List Event :=
  match r.result with
  | .ok _ => r.log
  | .error error => r.log ++ [.skipped error]

/-- The log and the results of several methods, each analyzed by itself. -/
def analyzeAll (settings : Settings) (methods : List (Method × Graph)) :
    List Event × List (Except AnalysisError Frames) :=
  let reports := methods.map fun (method, graph) => analyze settings method graph
  (reports.flatMap logWithSkip, reports.map Report.result)

end SymbolicFrames
