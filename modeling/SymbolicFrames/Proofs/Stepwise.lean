-- The stepwise analysis does what the analysis by replays does. Going through a block enters the
-- handlers with the very frames that a replay leaves exposed, and writes the frames of its steps
-- into the columns. Main statement: both analyses give the same report, with the recorded steps
-- split into the two columns, for every method and every graph.
import SymbolicFrames.Analysis.Stepwise
import SymbolicFrames.Proofs.Opcodes
import SymbolicFrames.Proofs.Runs

namespace SymbolicFrames

/-! ## Recorded steps in columns -/

/-- The frames before and after of every step, each in a column of their own. -/
def Frames.columns (frames : Frames) : Columns :=
  { before := frames.steps.map (Option.map Step.before)
    after := frames.steps.map (Option.map Step.after) }

/-- Writes consecutive steps into the columns. -/
def Columns.record (columns : Columns) (start : Index) : List Step → Columns
  | [] => columns
  | step :: rest =>
    ((columns.writeBefore start step.before).writeAfter start step.after).record (start + 1) rest

namespace Frames

theorem before?_columns (frames : Frames) (index : Index) :
    frames.columns.before? index = frames.before? index := by
  simp only [columns, Columns.before?, before?, step?, Array.getElem?_map]
  rcases frames.steps[index]? with _ | _ | step <;> rfl

theorem after?_columns (frames : Frames) (index : Index) :
    frames.columns.after? index = frames.after? index := by
  simp only [columns, Columns.after?, after?, step?, Array.getElem?_map]
  rcases frames.steps[index]? with _ | _ | step <;> rfl

theorem size_columns (frames : Frames) : frames.columns.size = frames.size := by
  simp [columns, Columns.size, size]

theorem reachable_columns (frames : Frames) : frames.columns.reachable = frames.reachable := by
  simp only [Columns.reachable, reachable, size_columns, before?_columns, before?,
    Option.isSome_map]

theorem columns_ofSize (instructions : Nat) :
    (ofSize instructions).columns = Columns.ofSize instructions := by
  simp [columns, ofSize, Columns.ofSize]

theorem columns_record (frames : Frames) (start : Index) (steps : List Step) :
    (frames.record start steps).columns = frames.columns.record start steps := by
  induction steps generalizing frames start with
  | nil => rfl
  | cons step rest ih =>
    rw [record, ih, Columns.record]
    simp [columns, Columns.writeBefore, Columns.writeAfter]

end Frames

namespace Problem

variable {problem : Problem}

/-! ## One block -/

/-- The failure of an instruction that is counted from this index. -/
def faultFrom (start : Index) (r : Replay) : Option Failure :=
  r.fault.map fun (i, fault) => .instruction (start + r.steps.length) i fault

/-- Whatever is done after the last instruction and the last handlers, it is done after a replay
as well, once the exposed frames have been delivered to the handlers. -/
theorem goThrough_andThen {β : Type} (edges : List Edge)
    (last : Frame → Worklist → Columns → Report Failure β) {instructions : List Instruction}
    {start : Index}
    (hthere : ∀ k < instructions.length,
      problem.method.instructions[start + k]? = instructions[k]?)
    (frame : Frame) (w : Worklist) (columns : Columns) :
    ((problem.goThrough edges frame w columns
        (List.range' start instructions.length)).andThen fun (exit, passed, columns) =>
      (problem.enterHandlers edges passed exit).andThen fun entered =>
        last exit entered columns) =
    (w.deliver ((Replay.run frame instructions).exposed.flatMap
        (Replay.toHandlers problem.settings.defaultException edges))).andThen fun entered =>
      match faultFrom start (Replay.run frame instructions) with
      | some failure => .failure failure
      | none =>
        last (Replay.run frame instructions).exit entered
          (columns.record start (Replay.run frame instructions).steps) := by
  induction instructions generalizing start frame w columns with
  | nil =>
    simp [goThrough, Report.success_andThen, Replay.run, Replay.exposed, faultFrom,
      Columns.record, enterHandlers]
  | cons i rest ih =>
    have hi : problem.method.instructions[start]? = some i := hthere 0 (Nat.zero_lt_succ _)
    have hrest : ∀ k < rest.length,
        problem.method.instructions[start + 1 + k]? = rest[k]? := by
      intro k hk
      have hk' := hthere (k + 1) (Nat.succ_lt_succ hk)
      rwa [List.getElem?_cons_succ, Nat.add_comm k 1, ← Nat.add_assoc] at hk'
    rw [List.length_cons, List.range'_succ, goThrough]
    simp only [hi, Report.andThen_assoc, Frame.executeOpcode_opcode]
    rcases hexec : frame.execute i with fault | next
    · rw [Replay.run_cons_of_error hexec]
      simp [Replay.exposed, faultFrom, enterHandlers, Report.failure_andThen]
    · simp only [ih hrest]
      rw [Replay.run_cons_of_ok hexec]
      simp only [Replay.exposed, List.map_cons, List.cons_append, List.flatMap_cons,
        Worklist.deliver_append, Report.andThen_assoc, Columns.record, enterHandlers, faultFrom,
        List.length_cons]
      simp only [Nat.add_assoc, Nat.add_comm 1]

/-! ## One visit -/

/-- The same point of the analysis, with the recorded steps in columns. -/
def Progress.stage (p : Progress) : Stage :=
  { worklist := p.worklist, columns := p.frames.columns, visits := p.visits }

theorem exceeded?_succ (s : Settings) (visits : Nat) :
    s.exceeded? (visits + 1) = s.limitReached? visits := by
  simp only [Settings.exceeded?, Settings.limitReached?, Nat.lt_add_one_iff]

/-- What is done to a block of the graph is what its replay comes to. -/
theorem goThrough_eq_deliverAll (p : Progress) {node : Node}
    (hwithin : node.block.stop ≤ problem.method.instructions.length) (frame : Frame)
    (waiting : Worklist) :
    ((problem.goThrough node.edges frame waiting p.frames.columns node.block.indices).andThen
      fun (exit, passed, columns) =>
        (problem.enterHandlers node.edges passed exit).andThen fun entered =>
          (entered.deliver (Replay.toSuccessors node.edges exit)).andThen fun next =>
            .success (⟨next, columns, p.visits + 1⟩ : Stage)) =
    ((problem.deliverAll node (problem.replay node.block frame) waiting).andThen fun next =>
      .success (⟨next, p.frames.record node.block.start
        (problem.replay node.block frame).steps, p.visits + 1⟩ : Progress)).map
          Progress.stage := by
  have hlength := Block.length_slice hwithin
  have hindices : node.block.indices = List.range' node.block.start
      (node.block.slice problem.method.instructions).length := by
    rw [hlength, Block.indices]
  have hthere : ∀ k < (node.block.slice problem.method.instructions).length,
      problem.method.instructions[node.block.start + k]?
        = (node.block.slice problem.method.instructions)[k]? := by
    intro k hk
    rw [Block.getElem?_slice (hlength ▸ hk)]
  rw [hindices]
  refine (goThrough_andThen node.edges (fun exit entered columns =>
    (entered.deliver (Replay.toSuccessors node.edges exit)).andThen fun next =>
      .success (⟨next, columns, p.visits + 1⟩ : Stage)) hthere frame waiting
        p.frames.columns).trans ?_
  rw [Report.map_andThen, deliverAll, Report.andThen_assoc, Replay.deliveries,
    Worklist.deliver_append, Report.andThen_assoc]
  congr 1
  funext entered
  change (match faultOf node.block (problem.replay node.block frame) with
    | some failure => _
    | none => _) = _
  rcases hfault : (problem.replay node.block frame).fault with _ | ⟨i, fault⟩
  · simp only [faultOf, hfault, Option.map_none, Option.isNone_none, if_true,
      Report.success_andThen]
    congr 1
    funext next
    rw [← Frames.columns_record]
    rfl
  · simp only [faultOf, hfault, Option.map_some, Option.isNone_some, Bool.false_eq_true, if_false,
      Worklist.deliver, Report.success_andThen, Report.failure_andThen]

theorem visitStepwise_eq (hvalid : problem.graph.Valid problem.method.instructions.length)
    (p : Progress) (id : BlockId) (frame : Frame) (waiting : Worklist) :
    problem.visitStepwise p.stage id frame waiting
      = (problem.visit p id frame waiting).map Progress.stage := by
  unfold visitStepwise visit
  simp only [Progress.stage, exceeded?_succ]
  rcases problem.settings.limitReached? p.visits with _ | limit
  · rcases hnode : problem.graph.nodes[id]? with _ | node
    · have hblock : problem.graph.block? id = none := by simp [Graph.block?, hnode]
      rw [hblock]
      rfl
    · have hblock : problem.graph.block? id = some node.block :=
        Graph.block?_eq_some_iff.mpr ⟨node, hnode, rfl⟩
      rw [hblock, Graph.successors_of_node hnode]
      exact congrArg (Report.after [.visiting id frame])
        (goThrough_eq_deliverAll p (hvalid.within hblock) frame waiting)
  · rfl

/-! ## All visits -/

theorem runStepwise_of_idle {s : Stage} (h : s.worklist.pop? = none) :
    problem.runStepwise s = ⟨[.finished problem.method.text s.visits], .ok s.columns⟩ := by
  fun_cases problem.runStepwise s with
  | case1 => rfl
  | case2 _ _ _ hpop | case3 _ _ _ hpop => simp [h] at hpop

theorem runStepwise_of_waiting {s : Stage} {id : BlockId} {frame : Frame} {waiting : Worklist}
    (h : s.worklist.pop? = some (id, frame, waiting)) :
    problem.runStepwise s
      = (problem.visitStepwise s id frame waiting).andThen problem.runStepwise := by
  fun_cases problem.runStepwise s with
  | case1 hnone => simp [h] at hnone
  | case2 id' frame' waiting' hpop failure hfail =>
    rw [h, Option.some.injEq] at hpop
    cases hpop
    simp [Report.andThen, hfail]
  | case3 id' frame' waiting' hpop next hnext =>
    rw [h, Option.some.injEq] at hpop
    cases hpop
    simp [Report.andThen, hnext]

theorem runStepwise_eq (hvalid : problem.graph.Valid problem.method.instructions.length)
    (p : Progress) : problem.runStepwise p.stage = (problem.run p).map Frames.columns := by
  fun_induction problem.run p with
  | case1 p hstep =>
    rw [step?, Option.map_eq_none_iff] at hstep
    exact runStepwise_of_idle hstep
  | case2 p report hstep failure hfail =>
    rw [step?, Option.map_eq_some_iff] at hstep
    obtain ⟨⟨id, frame, waiting⟩, hpop, rfl⟩ := hstep
    rw [runStepwise_of_waiting hpop, visitStepwise_eq hvalid, Report.andThen_map]
    simp [Report.andThen, hfail, Report.map, Except.map]
  | case3 p report hstep next hnext ih =>
    rw [step?, Option.map_eq_some_iff] at hstep
    obtain ⟨⟨id, frame, waiting⟩, hpop, rfl⟩ := hstep
    rw [runStepwise_of_waiting hpop, visitStepwise_eq hvalid, Report.andThen_map]
    simp [Report.andThen, hnext, ih, Report.map_after]

theorem outcomeStepwise_eq (problem : Problem) :
    problem.outcomeStepwise = problem.outcome.map Frames.columns := by
  unfold outcomeStepwise outcome
  rcases hfault : problem.graph.fault? problem.method.instructions.length with _ | fault
  · have hvalid := Graph.valid_of_fault?_eq_none hfault
    rcases problem.method.entryFrame with fault | frame
    · rfl
    · simp only [Report.map_andThen, ← runStepwise_eq hvalid, Progress.stage, start,
        Frames.columns_ofSize]
  · rfl

end Problem

/-- Both analyses give the same report. -/
theorem analyzeStepwise_eq (settings : Settings) (method : Method) (graph : Graph) :
    analyzeStepwise settings method graph
      = (analyze settings method graph).map Frames.columns := by
  unfold analyzeStepwise analyze
  rw [Problem.outcomeStepwise_eq]
  rcases (Problem.outcome ⟨settings, method, graph⟩) with ⟨log, failure | frames⟩ <;> rfl

/-- The columns hold what was recorded, so an instruction that has a frame before it in the one
has a frame after it in the other. -/
theorem columns_of_analyze {settings : Settings} {method : Method} {graph : Graph}
    {frames : Frames} (h : (analyze settings method graph).result = .ok frames) :
    ∃ columns, (analyzeStepwise settings method graph).result = .ok columns ∧
      columns.size = frames.size ∧ columns.reachable = frames.reachable ∧
      ∀ index, columns.before? index = frames.before? index ∧
        columns.after? index = frames.after? index ∧
        (columns.before? index).isSome = (columns.after? index).isSome := by
  refine ⟨frames.columns, ?_, frames.size_columns, frames.reachable_columns, ?_⟩
  · rw [analyzeStepwise_eq, Report.map, h]
    rfl
  · intro index
    refine ⟨frames.before?_columns index, frames.after?_columns index, ?_⟩
    rw [frames.before?_columns, frames.after?_columns, Frames.before?, Frames.after?,
      Option.isSome_map, Option.isSome_map]

end SymbolicFrames
