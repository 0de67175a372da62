-- The visits an analysis makes, one after the other. What one visit does is said once, and
-- a whole analysis is a run of visits from its start to a worklist with nothing left to do.
import SymbolicFrames.Analysis.Run
import SymbolicFrames.Proofs.Replays
import SymbolicFrames.Proofs.Worklists

namespace SymbolicFrames

/-! ## Visits in the log -/

def Event.visit? : Event → Option (BlockId × Frame)
  | .visiting block frame => some (block, frame)
  | _ => none

/-- The blocks that were visited, in order, each with the frame on its entry. -/
def visitsOf (log : List Event) : List (BlockId × Frame) := log.filterMap Event.visit?

@[simp]
theorem visitsOf_nil : visitsOf [] = [] := rfl

@[simp]
theorem visitsOf_append (log log' : List Event) :
    visitsOf (log ++ log') = visitsOf log ++ visitsOf log' := by
  simp [visitsOf]

@[simp]
theorem visitsOf_visiting (block : BlockId) (frame : Frame) (log : List Event) :
    visitsOf (.visiting block frame :: log) = (block, frame) :: visitsOf log := rfl

@[simp]
theorem visitsOf_entryChanged (block : BlockId) (log : List Event) :
    visitsOf (.entryChanged block :: log) = visitsOf log := rfl

theorem Worklist.visitsOf_deliver (w : Worklist) (ds : List Delivery) :
    visitsOf (w.deliver ds).log = [] := by
  induction ds generalizing w with
  | nil => rfl
  | cons d rest ih =>
    rw [Worklist.deliver]
    split
    · rfl
    · rename_i changed _
      rw [Report.after, visitsOf_append, ih]
      cases changed <;> rfl

namespace Problem

/-! ## One visit -/

/-- What a visit to a block delivers. -/
def sends (problem : Problem) (node : Node) (frame : Frame) : List Delivery :=
  (problem.replay node.block frame).deliveries problem.settings.defaultException node.edges

/-- All that a visit which succeeds does: the block is replayed without a fault, what leaves
it is delivered, and its frames are recorded. -/
theorem visit_cases {problem : Problem} {p next : Progress} {id : BlockId} {frame : Frame}
    {waiting : Worklist} (h : (problem.visit p id frame waiting).result = .ok next) :
    ∃ node, problem.graph.nodes[id]? = some node ∧
      problem.settings.limitReached? p.visits = none ∧
      (problem.replay node.block frame).fault = none ∧
      (waiting.deliver (problem.sends node frame)).result = .ok next.worklist ∧
      next.frames = p.frames.record node.block.start (problem.replay node.block frame).steps ∧
      next.visits = p.visits + 1 := by
  unfold visit at h
  split at h
  · contradiction
  · rename_i hlimit
    split at h
    · contradiction
    · rename_i node hnode
      simp only [Report.after, Report.andThen, deliverAll] at h
      split at h
      · rename_i w hw
        split at hw
        · rename_i delivered hdelivered
          split at hw
          · contradiction
          · rename_i hfault
            simp only [Report.success, Except.ok.injEq] at hw h
            have hnone : (problem.replay node.block frame).fault = none := by
              simpa [faultOf] using hfault
            rw [← h, ← hw]
            exact ⟨node, hnode, hlimit, hnone, hdelivered, rfl, rfl⟩
        · contradiction
      · contradiction

/-- All that can make a visit fail: the limit, a block that is not there, a frame that cannot
be joined, an instruction that cannot be executed. -/
theorem visit_fails {problem : Problem} {p : Progress} {id : BlockId} {frame : Frame}
    {waiting : Worklist} {failure : Failure}
    (h : (problem.visit p id frame waiting).result = .error failure) :
    (∃ limit, problem.settings.limitReached? p.visits = some limit ∧
      failure = .visitLimit limit) ∨
    (problem.graph.nodes[id]? = none ∧ failure = .graph (.unknownBlock id)) ∨
    ∃ node, problem.graph.nodes[id]? = some node ∧
      ((waiting.deliver (problem.sends node frame)).result = .error failure ∨
        ∃ i fault, (problem.replay node.block frame).fault = some (i, fault) ∧
          failure = .instruction
            (node.block.start + (problem.replay node.block frame).steps.length) i fault) := by
  unfold visit at h
  split at h
  · rename_i limit hlimit
    cases h
    exact Or.inl ⟨limit, hlimit, rfl⟩
  · split at h
    · rename_i hnode
      cases h
      exact Or.inr (Or.inl ⟨hnode, rfl⟩)
    · rename_i node hnode
      refine Or.inr (Or.inr ⟨node, hnode, ?_⟩)
      simp only [Report.after, Report.andThen, deliverAll] at h
      split at h
      · cases h
      · rename_i hdeliverAll
        cases h
        split at hdeliverAll
        · split at hdeliverAll
          · rename_i hfault
            cases hdeliverAll
            obtain ⟨⟨i, fault⟩, hreplay, rfl⟩ := Option.map_eq_some_iff.mp hfault
            exact Or.inr ⟨i, fault, hreplay, rfl⟩
          · cases hdeliverAll
        · rename_i hdeliver
          cases hdeliverAll
          exact Or.inl hdeliver

theorem visitsOf_deliverAll (problem : Problem) (node : Node) (r : Replay) (w : Worklist) :
    visitsOf (problem.deliverAll node r w).log = [] := by
  unfold deliverAll Report.andThen
  split
  · rw [Report.after, visitsOf_append, Worklist.visitsOf_deliver]
    split <;> rfl
  · exact Worklist.visitsOf_deliver _ _

/-- A visit short of the limit is in the log, whether it succeeds or fails. -/
theorem visitsOf_visit {problem : Problem} {p : Progress} {id : BlockId} {node : Node}
    (hlimit : problem.settings.limitReached? p.visits = none)
    (hnode : problem.graph.nodes[id]? = some node) (frame : Frame) (waiting : Worklist) :
    visitsOf (problem.visit p id frame waiting).log = [(id, frame)] := by
  simp only [visit, hlimit, hnode, Report.after, visitsOf_append, Report.andThen]
  split
  · simp [Report.success, visitsOf_deliverAll]
  · simp [visitsOf_deliverAll]

theorem visitsOf_visit_of_ok {problem : Problem} {p next : Progress} {id : BlockId}
    {frame : Frame} {waiting : Worklist}
    (h : (problem.visit p id frame waiting).result = .ok next) :
    visitsOf (problem.visit p id frame waiting).log = [(id, frame)] := by
  obtain ⟨node, hnode, hlimit, -⟩ := visit_cases h
  exact visitsOf_visit hlimit hnode frame waiting

/-- A visit is in the log once at most, and no other is. -/
theorem visitsOf_visit_sublist (problem : Problem) (p : Progress) (id : BlockId) (frame : Frame)
    (waiting : Worklist) :
    (visitsOf (problem.visit p id frame waiting).log).Sublist [(id, frame)] := by
  rcases hlimit : problem.settings.limitReached? p.visits with _ | limit
  · rcases hnode : problem.graph.nodes[id]? with _ | node
    · simp [visit, hlimit, hnode, Report.failure]
    · simp [visitsOf_visit hlimit hnode]
  · simp [visit, hlimit, Report.failure]

theorem length_visitsOf_visit (problem : Problem) (p : Progress) (id : BlockId) (frame : Frame)
    (waiting : Worklist) : (visitsOf (problem.visit p id frame waiting).log).length ≤ 1 :=
  (problem.visitsOf_visit_sublist p id frame waiting).length_le

/-! ## From one visit to the next -/

/-- Where no block waits, the run ends with what is recorded. -/
theorem run_of_idle {problem : Problem} {p : Progress} (h : p.worklist.pop? = none) :
    problem.run p = ⟨[.finished problem.method.text p.visits], .ok p.frames⟩ := by
  have hstep : problem.step? p = none := by simp [step?, h]
  fun_cases problem.run p with
  | case1 => rfl
  | case2 _ hsome | case3 _ hsome => simp [hstep] at hsome

/-- Where a block waits, the run goes on from what the visit to it comes to. -/
theorem run_of_waiting {problem : Problem} {p : Progress} {id : BlockId} {frame : Frame}
    {waiting : Worklist} (h : p.worklist.pop? = some (id, frame, waiting)) :
    problem.run p = (problem.visit p id frame waiting).andThen problem.run := by
  have hstep : problem.step? p = some (problem.visit p id frame waiting) := by simp [step?, h]
  fun_cases problem.run p with
  | case1 hnone => simp [hstep] at hnone
  | case2 report hsome failure hfail =>
    rw [hstep, Option.some.injEq] at hsome
    simp [hsome, Report.andThen, hfail]
  | case3 report hsome next hnext =>
    rw [hstep, Option.some.injEq] at hsome
    simp [hsome, Report.andThen, hnext]

/-! ## Runs -/

/-- Visits that succeed, one after the other, each to the block that has waited longest. -/
inductive Run (problem : Problem) : Progress → List (BlockId × Frame) → Progress → Prop
  | nil (p : Progress) : Run problem p [] p
  | cons {p next q : Progress} {id : BlockId} {frame : Frame} {waiting : Worklist}
      {visits : List (BlockId × Frame)} :
      p.worklist.pop? = some (id, frame, waiting) →
      (problem.visit p id frame waiting).result = .ok next →
      Run problem next visits q →
      Run problem p ((id, frame) :: visits) q

/-- What every visit keeps, a run keeps. -/
theorem Run.keeps {problem : Problem} {Inv : Progress → Prop}
    (hkeeps : ∀ {p next id frame waiting}, Inv p →
      p.worklist.pop? = some (id, frame, waiting) →
      (problem.visit p id frame waiting).result = .ok next → Inv next)
    {p q : Progress} {visits : List (BlockId × Frame)} (hrun : problem.Run p visits q)
    (hp : Inv p) : Inv q := by
  induction hrun with
  | nil => exact hp
  | cons hpop hvisit _ ih => exact ih (hkeeps hp hpop hvisit)

/-- The visits of an analysis are a run. It ends where no block waits, or with a visit that
fails. -/
theorem run_cases (problem : Problem) (p : Progress) :
    ∃ visits q, problem.Run p visits q ∧
      ((q.worklist.pop? = none ∧ (problem.run p).result = .ok q.frames ∧
          visitsOf (problem.run p).log = visits) ∨
        ∃ id frame waiting failure, q.worklist.pop? = some (id, frame, waiting) ∧
          (problem.visit q id frame waiting).result = .error failure ∧
          (problem.run p).result = .error failure ∧
          visitsOf (problem.run p).log
            = visits ++ visitsOf (problem.visit q id frame waiting).log) := by
  fun_induction problem.run p with
  | case1 p hstep =>
    rw [step?, Option.map_eq_none_iff] at hstep
    exact ⟨[], p, .nil p, Or.inl ⟨hstep, rfl, rfl⟩⟩
  | case2 p report hstep failure hnext =>
    rw [step?, Option.map_eq_some_iff] at hstep
    obtain ⟨⟨id, frame, waiting⟩, hpop, rfl⟩ := hstep
    exact ⟨[], p, .nil p, Or.inr ⟨id, frame, waiting, failure, hpop, hnext, rfl, rfl⟩⟩
  | case3 p report hstep next hnext ih =>
    rw [step?, Option.map_eq_some_iff] at hstep
    obtain ⟨⟨id, frame, waiting⟩, hpop, rfl⟩ := hstep
    obtain ⟨visits, q, hrun, hend⟩ := ih
    refine ⟨(id, frame) :: visits, q, .cons hpop hnext hrun, ?_⟩
    simp only [Report.after, visitsOf_append, visitsOf_visit_of_ok hnext]
    rcases hend with ⟨hq, hresult, hlog⟩ |
      ⟨id', frame', waiting', failure, hq, hfail, hresult, hlog⟩
    · exact Or.inl ⟨hq, hresult, by rw [hlog]; rfl⟩
    · exact Or.inr ⟨id', frame', waiting', failure, hq, hfail, hresult, by rw [hlog]; rfl⟩

/-! ## The whole analysis -/

/-- How the analysis begins: the graph fits the method, and the frame on entry to the method
has been delivered to the first block. -/
structure Begins (problem : Problem) (entry : Frame) (w : Worklist) : Prop where
  valid : problem.graph.Valid problem.method.instructions.length
  entry_eq : problem.method.entryFrame = .ok entry
  worklist_eq : w = (Worklist.ofSize problem.graph.size).setEntry Graph.entry entry

theorem Begins.entry_lt {problem : Problem} {entry : Frame} {w : Worklist}
    (h : problem.Begins entry w) :
    Graph.entry < (Worklist.ofSize problem.graph.size).entries.size := by
  simpa [Worklist.ofSize] using h.valid.has_entry

/-- Only the first block has been reached when the analysis begins. -/
theorem Begins.frameAt? {problem : Problem} {entry f : Frame} {w : Worklist} {b : BlockId}
    (h : problem.Begins entry w) (hf : w.frameAt? b = some f) : b = Graph.entry ∧ f = entry := by
  have hlt := h.entry_lt
  obtain ⟨-, -, rfl⟩ := h
  rw [Worklist.frameAt?_setEntry hlt] at hf
  split at hf
  · rename_i hb
    rw [Option.some.injEq] at hf
    exact ⟨hb, hf.symm⟩
  · rw [Worklist.frameAt?_ofSize] at hf
    contradiction

/-- Where the graph and the arguments are in order, the analysis is a run. -/
theorem outcome_eq_run {problem : Problem} {entry : Frame}
    (hfault : problem.graph.fault? problem.method.instructions.length = none)
    (hentry : problem.method.entryFrame = .ok entry) :
    problem.outcome = (problem.run (problem.start
      ((Worklist.ofSize problem.graph.size).setEntry Graph.entry entry))).after
        [.entryChanged Graph.entry] := by
  have hvalid := Graph.valid_of_fault?_eq_none hfault
  have hblank : (Worklist.ofSize problem.graph.size).entries[Graph.entry]? = some none := by
    simp [Worklist.ofSize, hvalid.has_entry]
  simp [outcome, hfault, hentry, Worklist.deliver, Worklist.propagate, hblank, Report.andThen,
    Report.after, Report.success]

theorem outcome_of_begins {problem : Problem} {entry : Frame}
    (hfault : problem.graph.fault? problem.method.instructions.length = none)
    (hentry : problem.method.entryFrame = .ok entry) :
    ∃ w, problem.Begins entry w ∧
      problem.outcome.result = (problem.run (problem.start w)).result ∧
      visitsOf problem.outcome.log = visitsOf (problem.run (problem.start w)).log := by
  refine ⟨_, ⟨Graph.valid_of_fault?_eq_none hfault, hentry, rfl⟩, ?_⟩
  rw [outcome_eq_run hfault hentry]
  exact ⟨rfl, rfl⟩

/-- An analysis that succeeds is a run to the end. -/
theorem outcome_eq_ok {problem : Problem} {frames : Frames}
    (h : problem.outcome.result = .ok frames) :
    ∃ entry w q, problem.Begins entry w ∧
      problem.Run (problem.start w) (visitsOf problem.outcome.log) q ∧
      q.worklist.pop? = none ∧ q.frames = frames := by
  rcases hfault : problem.graph.fault? problem.method.instructions.length with _ | fault
  · rcases hentry : problem.method.entryFrame with fault | entry
    · simp [outcome, hfault, hentry, Report.failure] at h
    · obtain ⟨w, hbegins, hresult, hlog⟩ := outcome_of_begins hfault hentry
      obtain ⟨visits, q, hrun, hend⟩ := problem.run_cases (problem.start w)
      rw [hresult] at h
      rcases hend with ⟨hq, hok, hvisits⟩ | ⟨_, _, _, _, _, _, herror, _⟩
      · rw [hok, Except.ok.injEq] at h
        rw [hlog, hvisits]
        exact ⟨entry, w, q, hbegins, hrun, hq, h⟩
      · rw [herror] at h
        contradiction
  · simp [outcome, hfault, Report.failure] at h

end Problem

theorem analyze_eq_ok_iff {settings : Settings} {method : Method} {graph : Graph}
    {frames : Frames} :
    (analyze settings method graph).result = .ok frames ↔
      (Problem.outcome ⟨settings, method, graph⟩).result = .ok frames := by
  unfold analyze
  rcases h : (Problem.outcome ⟨settings, method, graph⟩).result with failure | frames' <;>
    simp [Except.mapError, h]

theorem analyze_eq_error_iff {settings : Settings} {method : Method} {graph : Graph}
    {error : AnalysisError} :
    (analyze settings method graph).result = .error error ↔
      error.method = method.text ∧
        (Problem.outcome ⟨settings, method, graph⟩).result = .error error.failure := by
  obtain ⟨name, failure⟩ := error
  unfold analyze
  rcases h : (Problem.outcome ⟨settings, method, graph⟩).result with failure' | frames
  · simp only [Except.mapError, h, Except.error.injEq, AnalysisError.mk.injEq]
    exact and_congr_left' eq_comm
  · simp [Except.mapError, h]

theorem outcome_of_analyze_error {settings : Settings} {method : Method} {graph : Graph}
    {error : AnalysisError} (h : (analyze settings method graph).result = .error error) :
    (Problem.outcome ⟨settings, method, graph⟩).result = .error error.failure :=
  (analyze_eq_error_iff.mp h).2

theorem visitsOf_analyze (settings : Settings) (method : Method) (graph : Graph) :
    visitsOf (analyze settings method graph).log
      = visitsOf (Problem.outcome ⟨settings, method, graph⟩).log := rfl

/-! ## Analyses that can be evaluated -/

namespace Problem

/-- What a run comes to if it takes fewer visits than given, and nothing if it takes more. -/
def runWithin (problem : Problem) : Nat → Progress → Option (Except Failure Frames)
  | 0, _ => none
  | visits + 1, p =>
    match problem.step? p with
    | none => some (.ok p.frames)
    | some report =>
      match report.result with
      | .error failure => some (.error failure)
      | .ok next => problem.runWithin visits next

theorem result_run_of_runWithin {problem : Problem} {p : Progress} {visits : Nat}
    {result : Except Failure Frames} (h : problem.runWithin visits p = some result) :
    (problem.run p).result = result := by
  induction visits generalizing p with
  | zero => cases h
  | succ visits ih =>
    fun_cases problem.run p with
    | case1 hstep =>
      simp only [runWithin, hstep, Option.some.injEq] at h
      exact h
    | case2 report hstep failure hnext =>
      simp only [runWithin, hstep, hnext, Option.some.injEq] at h
      exact h
    | case3 report hstep next hnext =>
      simp only [runWithin, hstep, hnext] at h
      exact ih h

end Problem

/-- An analysis whose run has been evaluated. -/
theorem result_analyze_of_runWithin {settings : Settings} {method : Method} {graph : Graph}
    {frames : Frames} (visits : Nat) (entry : Frame)
    (hfault : graph.fault? method.instructions.length = none)
    (hentry : method.entryFrame = .ok entry)
    (hrun : Problem.runWithin ⟨settings, method, graph⟩ visits
      (Problem.start ⟨settings, method, graph⟩
        ((Worklist.ofSize graph.size).setEntry Graph.entry entry)) = some (.ok frames)) :
    (analyze settings method graph).result = .ok frames := by
  let problem : Problem := ⟨settings, method, graph⟩
  obtain ⟨w, ⟨-, -, rfl⟩, hresult, -⟩ : ∃ w, problem.Begins entry w ∧ _ :=
    Problem.outcome_of_begins hfault hentry
  exact analyze_eq_ok_iff.mpr (hresult.trans (Problem.result_run_of_runWithin hrun))

end SymbolicFrames
