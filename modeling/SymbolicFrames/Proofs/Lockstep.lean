-- Two analyses side by side. Where each visit of the one would come to the same in the other,
-- no visit can set them apart, so they make the same visits to the end. Main statement: such
-- analyses leave the same report.
import SymbolicFrames.Proofs.Failures

namespace SymbolicFrames

namespace Problem

variable {problem problem' : Problem} {p next : Progress} {id : BlockId} {frame : Frame}
  {waiting : Worklist}

/-! ## Points of one analysis -/

theorem Run.concat {q : Progress} {visits : List (BlockId × Frame)}
    (hrun : problem.Run q visits p) (hpop : p.worklist.pop? = some (id, frame, waiting))
    (hvisit : (problem.visit p id frame waiting).result = .ok next) :
    problem.Run q (visits ++ [(id, frame)]) next := by
  induction hrun with
  | nil => exact .cons hpop hvisit (.nil next)
  | cons hpop' hvisit' _ ih => exact .cons hpop' hvisit' (ih hpop hvisit)

theorem ComesTo.visit (h : problem.ComesTo p)
    (hpop : p.worklist.pop? = some (id, frame, waiting))
    (hvisit : (problem.visit p id frame waiting).result = .ok next) : problem.ComesTo next := by
  obtain ⟨entry, w, visits, hbegins, hrun⟩ := h
  exact ⟨entry, w, _, hbegins, hrun.concat hpop hvisit⟩

theorem comesTo_start {entry : Frame} {w : Worklist} (h : problem.Begins entry w) :
    problem.ComesTo (problem.start w) :=
  ⟨entry, w, [], h, .nil _⟩

/-! ## Analyses that keep step -/

/-- A visit with the frame comes to the same in both problems: the block has the same
instructions to execute, and what it sends on is taken in alike. -/
structure SameVisit (problem problem' : Problem) (id : BlockId) (frame : Frame)
    (waiting : Worklist) (node : Node) : Prop where
  node_eq : ∃ node', problem'.graph.nodes[id]? = some node' ∧ node'.block = node.block ∧
    waiting.deliver (problem'.sends node' frame) = waiting.deliver (problem.sends node frame)
  replay_eq : problem'.replay node.block frame = problem.replay node.block frame

/-- The two problems look alike from outside, and so they do from wherever the first one
makes a visit. -/
structure KeepsStep (problem problem' : Problem) : Prop where
  settings_eq : problem'.settings = problem.settings
  text_eq : problem'.method.text = problem.method.text
  length_eq : problem'.method.instructions.length = problem.method.instructions.length
  entryFrame_eq : problem'.method.entryFrame = problem.method.entryFrame
  size_eq : problem'.graph.size = problem.graph.size
  fault?_eq : problem'.graph.fault? problem'.method.instructions.length
    = problem.graph.fault? problem.method.instructions.length
  same_visit : ∀ {id frame waiting node}, problem.Grounded id frame waiting node →
    problem.SameVisit problem' id frame waiting node

namespace KeepsStep

theorem visit_eq (h : problem.KeepsStep problem') (hp : problem.ComesTo p)
    (hpop : p.worklist.pop? = some (id, frame, waiting)) :
    problem'.visit p id frame waiting = problem.visit p id frame waiting := by
  obtain ⟨node, hgrounded⟩ := hp.grounded hpop
  obtain ⟨⟨node', hnode', hblock, hdeliver⟩, hreplay⟩ := h.same_visit hgrounded
  unfold sends at hdeliver
  unfold visit
  rw [hnode', hgrounded.node_eq, h.settings_eq]
  simp only [deliverAll]
  -- First the deliveries as a whole: they need not be the same ones, only come to the same.
  rw [hdeliver, hblock, hreplay]

/-- Wherever the first analysis comes, the second one goes on in the same way. -/
theorem run_eq (h : problem.KeepsStep problem') (hp : problem.ComesTo p) :
    problem'.run p = problem.run p := by
  fun_induction problem.run p with
  | case1 p hstep =>
    rw [step?, Option.map_eq_none_iff] at hstep
    rw [run_of_idle hstep, h.text_eq]
  | case2 p report hstep failure hfails =>
    rw [step?, Option.map_eq_some_iff] at hstep
    obtain ⟨⟨id, frame, waiting⟩, hpop, rfl⟩ := hstep
    rw [run_of_waiting hpop, h.visit_eq hp hpop, Report.andThen, hfails]
  | case3 p report hstep next hnext ih =>
    rw [step?, Option.map_eq_some_iff] at hstep
    obtain ⟨⟨id, frame, waiting⟩, hpop, rfl⟩ := hstep
    rw [run_of_waiting hpop, h.visit_eq hp hpop, Report.andThen, hnext]
    simp only [ih (hp.visit hpop hnext)]

theorem outcome_eq (h : problem.KeepsStep problem') : problem'.outcome = problem.outcome := by
  rcases hfault : problem.graph.fault? problem.method.instructions.length with _ | fault
  · rcases hentry : problem.method.entryFrame with fault | entry
    · simp [outcome, h.fault?_eq, hfault, h.entryFrame_eq, hentry]
    · rw [outcome_eq_run (h.fault?_eq.trans hfault) (h.entryFrame_eq.trans hentry),
        outcome_eq_run hfault hentry, h.size_eq, start, h.length_eq]
      have hbegins : problem.Begins entry _ := ⟨Graph.valid_of_fault?_eq_none hfault, hentry, rfl⟩
      exact congrArg _ (h.run_eq (comesTo_start hbegins))
  · simp [outcome, h.fault?_eq, hfault]

end KeepsStep

end Problem

/-- The log is the same as well as the result. -/
theorem analyze_eq_of_keepsStep {settings : Settings} {method method' : Method}
    {graph graph' : Graph}
    (h : Problem.KeepsStep ⟨settings, method, graph⟩ ⟨settings, method', graph'⟩) :
    analyze settings method' graph' = analyze settings method graph := by
  have htext : method'.text = method.text := h.text_eq
  have hlength : method'.instructions.length = method.instructions.length := h.length_eq
  have hsize : graph'.size = graph.size := h.size_eq
  simp only [analyze, htext, hlength, hsize, h.outcome_eq]

end SymbolicFrames
