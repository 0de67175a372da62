-- Why an analysis fails. Every failure says something true of the method and its graph, and
-- the defects that no method can cause are not among them. Main statement: the check of the
-- graph, the widths of the arguments, joins of stacks of different heights, the faults of
-- instructions that control can reach, and the limit are all that makes an analysis fail, and
-- whatever it looks up is there. The stepwise analysis asks for blocks and instructions that
-- could be missing, and never finds one missing.
import SymbolicFrames.Proofs.Reachability
import SymbolicFrames.Proofs.Stepwise

namespace SymbolicFrames

/-- The fault behind a failure, if it is one of a frame. -/
def Failure.fault? : Failure → Option Fault
  | .instruction _ _ fault | .blockEntry _ fault | .methodEntry fault => some fault
  | .graph _ | .visitLimit _ => none

theorem Method.isSome_receiver (m : Method) : m.receiver.isSome = m.flags.hasReceiver := by
  unfold Method.receiver
  split
  · rename_i h
    exact h.symm
  · rename_i h
    exact (Bool.eq_false_of_not_eq_true h).symm

/-! ## Faults of the graph -/

/-- Faults that the check of a graph can find. The others are met, if ever, on a visit. -/
def GraphFault.OfCheck : GraphFault → Prop
  | .unknownBlock _ | .pastMethod _ => False
  | _ => True

namespace Graph

theorem ofCheck_of_blockFault? {g : Graph} {n : Nat} {id : BlockId} {b : Block}
    {fault : GraphFault} (h : g.blockFault? n id b = some fault) : fault.OfCheck := by
  unfold blockFault? at h
  split at h
  · cases h
    trivial
  · split at h
    · cases h
      trivial
    · obtain ⟨edge, -, hedge⟩ := List.exists_of_findSome?_eq_some h
      split at hedge
      · contradiction
      · cases hedge
        trivial

theorem ofCheck_of_overlap? {blocks : List (BlockId × Block)} {fault : GraphFault}
    (h : overlap? blocks = some fault) : fault.OfCheck := by
  fun_induction overlap? blocks with
  | case1 =>
    cases h
    trivial
  | case2 _ _ _ _ _ _ ih => exact ih h
  | case3 => contradiction

theorem ofCheck_of_fault? {g : Graph} {n : Nat} {fault : GraphFault}
    (h : g.fault? n = some fault) : fault.OfCheck := by
  unfold fault? at h
  split at h
  · cases h
    trivial
  · split at h
    · cases h
      trivial
    · rcases Option.or_eq_some_iff.mp h with hblock | ⟨-, hoverlap⟩
      · obtain ⟨⟨id, b⟩, -, hfault⟩ := List.exists_of_findSome?_eq_some hblock
        exact ofCheck_of_blockFault? hfault
      · exact ofCheck_of_overlap? hoverlap

end Graph

/-! ## Deliveries -/

namespace Worklist

theorem propagate_fault {w : Worklist} {d : Delivery} {fault : Fault}
    (hd : d.target < w.entries.size) (h : w.propagate d = .error fault) :
    ∃ current, w.frameAt? d.target = some current ∧ current.merge d.frame = .error fault := by
  unfold propagate at h
  split at h
  · rename_i hnone
    rw [Array.getElem?_eq_getElem hd] at hnone
    contradiction
  · cases h
  · rename_i current hcurrent
    rw [← frameAt?_eq_some_iff] at hcurrent
    split at h
    · rename_i hmerge
      cases h
      exact ⟨current, hcurrent, hmerge⟩
    · cases h
    · cases h

/-- As far as the frames are delivered, each finds the entry and the mark of its block. -/
def HasRoom (w : Worklist) : List Delivery → Prop
  | [] => True
  | d :: rest =>
    d.target < w.entries.size ∧ d.target < w.queued.size ∧
      ∀ next changed, w.propagate d = .ok (next, changed) → next.HasRoom rest

theorem hasRoom_of_lt {w : Worklist} {ds : List Delivery} (hw : w.Sound)
    (hds : ∀ d ∈ ds, d.target < w.entries.size) : w.HasRoom ds := by
  induction ds generalizing w with
  | nil => trivial
  | cons d rest ih =>
    have hd := hds d List.mem_cons_self
    refine ⟨hd, hw.size_eq.symm ▸ hd, ?_⟩
    intro next changed hnext
    apply ih (sound_propagate hw hnext)
    intro d' hd'
    rw [(grows_propagate hw hnext).size_eq]
    exact hds d' (List.mem_cons_of_mem d hd')

end Worklist

namespace Problem

variable {problem : Problem} {p : Progress} {id : BlockId} {frame : Frame} {waiting : Worklist}
  {node : Node} {failure : Failure}

/-! ## Points of an analysis -/

/-- The visits of an analysis, made so far without a failure, lead here. -/
def ComesTo (problem : Problem) (p : Progress) : Prop :=
  ∃ entry w visits, problem.Begins entry w ∧ problem.Run (problem.start w) visits p

/-- What a visit can rely on wherever the analysis makes it. -/
structure Grounded (problem : Problem) (id : BlockId) (frame : Frame) (waiting : Worklist)
    (node : Node) : Prop where
  valid : problem.graph.Valid problem.method.instructions.length
  node_eq : problem.graph.nodes[id]? = some node
  reachable : problem.graph.Reachable id
  fits : frame.Fits problem.method
  sound : waiting.Sound
  size_eq : waiting.entries.size = problem.graph.size
  waiting_fits : ∀ {b f}, waiting.frameAt? b = some f → f.Fits problem.method

theorem ComesTo.grounded (h : problem.ComesTo p)
    (hpop : p.worklist.pop? = some (id, frame, waiting)) :
    ∃ node, problem.Grounded id frame waiting node := by
  obtain ⟨entry, w, visits, hbegins, hrun⟩ := h
  obtain ⟨hsteady, hreachable⟩ := problem.carries_reachable.run hbegins hrun
  obtain ⟨-, hframe, hentries, hsound⟩ := Worklist.pop?_cases hsteady.sound hpop
  obtain ⟨node, hnode⟩ := hsteady.exists_node hframe
  refine ⟨node, hbegins.valid, hnode, hreachable id frame hframe, hsteady.fits hframe, hsound,
    hentries.symm ▸ hsteady.size_eq, ?_⟩
  intro b f hf
  rw [Worklist.frameAt?_congr hentries] at hf
  exact hsteady.fits hf

namespace Grounded

theorem target_lt (h : problem.Grounded id frame waiting node) {d : Delivery}
    (hd : d ∈ problem.sends node frame) : d.target < problem.graph.size := by
  obtain ⟨edge, hedge, htarget⟩ := target_of_mem_sends hd
  rw [← Graph.successors_of_node h.node_eq] at hedge
  exact htarget ▸ h.valid.target_lt hedge

/-- All frames that meet have as many locals, so only the heights of their stacks can keep
them from being joined. -/
theorem deliver_failure (h : problem.Grounded id frame waiting node)
    (hfails : (waiting.deliver (problem.sends node frame)).result = .error failure) :
    ∃ target b current incoming, problem.graph.block? target = some b ∧ current ≠ incoming ∧
      failure = .blockEntry target (.incompatibleHeights current incoming) := by
  obtain ⟨before, d, after, middle, fault, hsends, hbefore, hfault, rfl⟩ :=
    Worklist.deliver_eq_error hfails
  have hmem : d ∈ problem.sends node frame := hsends ▸ List.mem_append_cons_self
  have hsize : middle.entries.size = problem.graph.size :=
    (Worklist.grows_deliver h.sound hbefore).size_eq.trans h.size_eq
  -- What was delivered before has been joined in by now, and joins keep the number of locals.
  have hmiddle : ∀ {b f}, middle.frameAt? b = some f → f.Fits problem.method := by
    intro b f hf
    apply Worklist.forall_deliver _ _ h.waiting_fits hbefore hf
    · intro b f g merged changed hf hg hmerge
      exact hf.merge hg hmerge
    · intro d' hd'
      exact sends_fit h.fits d' (hsends ▸ List.mem_append_left _ hd')
  obtain ⟨current, hcurrent, hmerge⟩ :=
    Worklist.propagate_fault (hsize.symm ▸ h.target_lt hmem) hfault
  have hlocals : current.locals.length = d.frame.locals.length :=
    (hmiddle hcurrent).length_locals.trans (sends_fit h.fits d hmem).length_locals.symm
  obtain ⟨hne, rfl⟩ := Frame.merge_fault hlocals hmerge
  obtain ⟨target, htarget⟩ := Graph.exists_node_of_lt (h.target_lt hmem)
  exact ⟨d.target, target.block, _, _, Graph.block?_eq_some_iff.mpr ⟨target, htarget, rfl⟩, hne,
    rfl⟩

/-- The instruction at which a replay stops is one of its block. -/
theorem instruction_failure (h : problem.Grounded id frame waiting node) {i : Instruction}
    {fault : Fault} (hfault : (problem.replay node.block frame).fault = some (i, fault)) :
    problem.graph.Reaches (node.block.start + (problem.replay node.block frame).steps.length) ∧
      problem.method.instructions[
        node.block.start + (problem.replay node.block frame).steps.length]? = some i ∧
      fault.OfInstruction problem.method.maxStack := by
  have hblock := Graph.block?_eq_some_iff.mpr ⟨node, h.node_eq, rfl⟩
  obtain ⟨hget, hexec⟩ := Replay.run_fault hfault
  have hlt : (problem.replay node.block frame).steps.length < node.block.size := by
    rw [← Block.length_slice (h.valid.within hblock)]
    exact (List.getElem?_eq_some_iff.mp hget).1
  refine ⟨⟨id, node.block, h.reachable, hblock, ?_⟩, ?_, ?_⟩
  · unfold Block.size at hlt
    unfold Block.Holds
    lia
  · rw [← Block.getElem?_slice hlt]
    exact hget
  · have hexit := replay_fits h.fits _ (Replay.exit_mem_exposed (problem.replay node.block frame))
    rw [← hexit.maxStack_eq]
    exact Frame.execute_fault hexec

end Grounded

/-! ## Failures -/

/-- What a failure says is true of the problem. -/
inductive Explains (problem : Problem) : Failure → Prop
  | graph {fault : GraphFault} :
      problem.graph.fault? problem.method.instructions.length = some fault →
      Explains problem (.graph fault)
  | methodEntry {slot : Slot} :
      problem.graph.fault? problem.method.instructions.length = none →
      problem.method.entryFrame = .error (.invalidLocal slot) →
      Explains problem (.methodEntry (.invalidLocal slot))
  | blockEntry {id : BlockId} {b : Block} {current incoming : Nat} :
      problem.graph.block? id = some b → current ≠ incoming →
      Explains problem (.blockEntry id (.incompatibleHeights current incoming))
  | instruction {index : Index} {i : Instruction} {fault : Fault} :
      problem.graph.Reaches index → problem.method.instructions[index]? = some i →
      fault.OfInstruction problem.method.maxStack →
      Explains problem (.instruction index i fault)
  | visitLimit {limit : Nat} :
      problem.settings.visitLimit = some limit → Explains problem (.visitLimit limit)

theorem Explains.not_internal (h : problem.Explains failure) (defect : Defect) :
    failure.fault? ≠ some (.internal defect) := by
  intro hfault
  cases h with
  | graph | methodEntry | blockEntry | visitLimit => cases hfault
  | instruction _ _ hof =>
    rw [Failure.fault?, Option.some.injEq] at hfault
    exact hof.ne_internal defect hfault

theorem ComesTo.explains_visit (h : problem.ComesTo p)
    (hpop : p.worklist.pop? = some (id, frame, waiting))
    (hfails : (problem.visit p id frame waiting).result = .error failure) :
    problem.Explains failure := by
  obtain ⟨node, hgrounded⟩ := h.grounded hpop
  rcases visit_fails hfails with ⟨limit, hlimit, rfl⟩ | ⟨hnone, -⟩ | ⟨node', hnode', hfail⟩
  · exact .visitLimit (Option.filter_eq_some_iff.mp hlimit).1
  · -- Only blocks of the graph have frames, so none that waits is missing from it.
    rw [hgrounded.node_eq] at hnone
    contradiction
  · rw [hgrounded.node_eq, Option.some.injEq] at hnode'
    subst hnode'
    rcases hfail with hdeliver | ⟨i, fault, hfault, rfl⟩
    · obtain ⟨_, _, _, _, hblock, hne, rfl⟩ := hgrounded.deliver_failure hdeliver
      exact .blockEntry hblock hne
    · obtain ⟨hreaches, hget, hof⟩ := hgrounded.instruction_failure hfault
      exact .instruction hreaches hget hof

/-- Every failure of an analysis is explained. -/
theorem explains_outcome (h : problem.outcome.result = .error failure) :
    problem.Explains failure := by
  rcases hfault : problem.graph.fault? problem.method.instructions.length with _ | fault
  · rcases hentry : problem.method.entryFrame with fault | entry
    · rw [outcome, hfault, hentry] at h
      cases h
      obtain ⟨slot, rfl⟩ := Frame.entry_fault hentry
      exact .methodEntry hfault hentry
    · obtain ⟨w, hbegins, hresult, -⟩ := outcome_of_begins hfault hentry
      obtain ⟨visits, q, hrun, hend⟩ := problem.run_cases (problem.start w)
      rw [hresult] at h
      rcases hend with ⟨-, hok, -⟩ | ⟨id, frame, waiting, failure', hpop, hfails, herror, -⟩
      · rw [hok] at h
        cases h
      · rw [herror] at h
        cases h
        have hcomes : problem.ComesTo q := ⟨entry, w, visits, hbegins, hrun⟩
        exact hcomes.explains_visit hpop hfails
  · rw [outcome, hfault] at h
    cases h
    exact .graph hfault

/-- The graph is at fault exactly if the check says so. -/
theorem outcome_eq_graph_iff (problem : Problem) (fault : GraphFault) :
    problem.outcome.result = .error (.graph fault) ↔
      problem.graph.fault? problem.method.instructions.length = some fault := by
  constructor
  · intro h
    cases explains_outcome h with
    | graph hfault => exact hfault
  · intro hfault
    rw [outcome, hfault]
    rfl

/-- The arguments are at fault exactly if they are too wide for the locals. -/
theorem outcome_eq_methodEntry_iff (hlast : problem.method.maxLocals ≤ Frame.lastSlot) :
    (∃ fault, problem.outcome.result = .error (.methodEntry fault)) ↔
      problem.graph.fault? problem.method.instructions.length = none ∧
        problem.method.maxLocals
          < problem.method.type.parameterWidth problem.method.flags.hasReceiver := by
  have hiff := Frame.entry_ok_iff problem.method.receiver problem.method.type
    problem.method.maxStack hlast
  rw [Method.isSome_receiver] at hiff
  rw [← Nat.not_le, ← hiff]
  constructor
  · rintro ⟨fault, h⟩
    cases explains_outcome h with
    | methodEntry hfault hentry =>
      refine ⟨hfault, ?_⟩
      rintro ⟨f, hf⟩
      rw [Method.entryFrame, hf] at hentry
      cases hentry
  · rintro ⟨hfault, hnone⟩
    rcases hentry : problem.method.entryFrame with fault | f
    · refine ⟨fault, ?_⟩
      rw [outcome, hfault, hentry]
      rfl
    · exact absurd ⟨f, hentry⟩ hnone

/-! ## Places -/

/-- Every place that the analysis uses here is there: the marks of the blocks that wait, the
block that is visited next, the instructions of that block and the places for their frames in
both columns, and the entries and marks of the blocks to which it delivers. -/
structure InBounds (problem : Problem) (p : Progress) : Prop where
  marks : ∀ b ∈ p.worklist.queue, b < p.worklist.queued.size
  next : ∀ {id frame waiting}, p.worklist.pop? = some (id, frame, waiting) →
    ∃ node, problem.graph.nodes[id]? = some node ∧
      (∀ i, node.block.Holds i →
        i < problem.method.instructions.length ∧ i < p.frames.columns.before.size ∧
          i < p.frames.columns.after.size) ∧
      waiting.HasRoom (problem.sends node frame)

theorem ComesTo.inBounds (h : problem.ComesTo p) : problem.InBounds p := by
  have hgrounded : ∀ {id frame waiting}, p.worklist.pop? = some (id, frame, waiting) →
      ∃ node, problem.Grounded id frame waiting node := h.grounded
  obtain ⟨entry, w, visits, hbegins, hrun⟩ := h
  obtain ⟨hsteady, -⟩ := problem.carries_reachable.run hbegins hrun
  constructor
  · intro b hb
    obtain ⟨f, hf⟩ := hsteady.sound.reached hb
    rw [hsteady.sound.size_eq]
    exact Worklist.lt_size_of_frameAt? hf
  · intro id frame waiting hpop
    obtain ⟨node, hnode⟩ := hgrounded hpop
    have hblock := Graph.block?_eq_some_iff.mpr ⟨node, hnode.node_eq, rfl⟩
    refine ⟨node, hnode.node_eq, ?_, Worklist.hasRoom_of_lt hnode.sound ?_⟩
    · intro i hi
      have hlt := Nat.lt_of_lt_of_le hi.2 (hnode.valid.within hblock)
      have hplace : i < p.frames.size := hsteady.frames_size.symm ▸ hlt
      unfold Frames.size at hplace
      exact ⟨hlt, by simpa [Frames.columns] using hplace, by simpa [Frames.columns] using hplace⟩
    · intro d hd
      exact hnode.size_eq.symm ▸ hnode.target_lt hd

/-- Wherever the program reads or writes by number, there is something: in the worklist when
the frame on entry to the method is delivered, at every point the analysis comes to, and in a
frame whenever a local is written or values are taken off the stack. -/
structure StaysInBounds (problem : Problem) : Prop where
  first : ∀ {entry}, problem.graph.fault? problem.method.instructions.length = none →
    problem.method.entryFrame = .ok entry →
    (Worklist.ofSize problem.graph.size).HasRoom [⟨Graph.entry, entry⟩]
  points : ∀ {p}, problem.ComesTo p → problem.InBounds p
  stores : ∀ {f g : Frame} {slot : Slot} {v : Value}, f.setLocal slot v = .ok g →
    slot < f.locals.length ∧ slot + v.width ≤ f.locals.length
  drops : ∀ {f g : Frame} {entries : Nat}, f.drop entries = .ok g → entries ≤ f.stack.length

theorem staysInBounds (problem : Problem) : problem.StaysInBounds where
  first := by
    intro entry hfault _
    apply Worklist.hasRoom_of_lt (Worklist.sound_ofSize _)
    intro d hd
    rw [List.mem_singleton] at hd
    subst hd
    simpa [Worklist.ofSize] using (Graph.valid_of_fault?_eq_none hfault).has_entry
  points := ComesTo.inBounds
  stores := by
    intro f g slot v h
    have hroom := (Frame.setLocal_eq_ok h).1
    exact ⟨Nat.lt_of_lt_of_le (Nat.lt_add_of_pos_right v.width_pos) hroom, hroom⟩
  drops := by
    intro f g entries h
    unfold Frame.drop at h
    split at h
    · cases h
    · rename_i hroom
      exact Nat.le_of_not_lt hroom

end Problem

/-- An analysis blames the graph exactly for what the check finds wrong with it, and the
arguments exactly if they are too wide for the locals. Any other failure is explained as well:
stacks of different heights that meet at a block, an instruction within the reach of control
that cannot be executed on some frame, the limit. None is a defect. The stepwise analysis gives
the same report, so no block and no instruction that it asks for is missing. The lists of opcodes
agree, so that no opcode is executed with a number of values that is not its own, and none can
cause a defect. And nothing is looked up that is not there. -/
theorem failures_are_explained (settings : Settings) (method : Method) (graph : Graph) :
    (∀ fault, (analyze settings method graph).result = .error ⟨method.text, .graph fault⟩ ↔
      graph.fault? method.instructions.length = some fault) ∧
    (method.maxLocals ≤ Frame.lastSlot →
      ((∃ fault,
          (analyze settings method graph).result = .error ⟨method.text, .methodEntry fault⟩) ↔
        graph.fault? method.instructions.length = none ∧
          method.maxLocals < method.type.parameterWidth method.flags.hasReceiver)) ∧
    (∀ error, (analyze settings method graph).result = .error error →
      error.method = method.text ∧
        Problem.Explains ⟨settings, method, graph⟩ error.failure ∧
        ∀ defect, error.failure.fault? ≠ some (.internal defect)) ∧
    (analyzeStepwise settings method graph
        = (analyze settings method graph).map Frames.columns ∧
      ∀ error fault, (analyzeStepwise settings method graph).result = .error error →
        error.failure = .graph fault → fault.OfCheck) ∧
    (∀ op : Opcode, op.ListsAgree ∧ op.form.opcode = op ∧
      ∀ (f : Frame) defect, f.executeOpcode op ≠ .error (.internal defect)) ∧
    (∀ i : Instruction, i.opcode.form = i ∧
      ∀ (f : Frame) defect, f.execute i ≠ .error (.internal defect)) ∧
    Problem.StaysInBounds ⟨settings, method, graph⟩ := by
  let problem : Problem := ⟨settings, method, graph⟩
  have hresult : ∀ failure, (analyze settings method graph).result
      = .error ⟨method.text, failure⟩ ↔ problem.outcome.result = .error failure := by
    intro failure
    rw [analyze_eq_error_iff]
    exact and_iff_right rfl
  have hexplained : ∀ error, (analyze settings method graph).result = .error error →
      error.method = method.text ∧ problem.Explains error.failure := by
    intro error herror
    obtain ⟨hname, hfailure⟩ := analyze_eq_error_iff.mp herror
    exact ⟨hname, Problem.explains_outcome hfailure⟩
  have hdefect : ∀ (i : Instruction) (f : Frame) defect,
      f.execute i ≠ .error (.internal defect) := by
    intro i f defect hexec
    exact (Frame.execute_fault hexec).ne_internal defect rfl
  refine ⟨?_, ?_, ?_, ⟨analyzeStepwise_eq settings method graph, ?_⟩, ?_, ?_,
    problem.staysInBounds⟩
  · intro fault
    rw [hresult]
    exact problem.outcome_eq_graph_iff fault
  · intro hlast
    simp only [hresult]
    exact problem.outcome_eq_methodEntry_iff hlast
  · intro error herror
    obtain ⟨hname, hexplains⟩ := hexplained error herror
    exact ⟨hname, hexplains, hexplains.not_internal⟩
  · intro error fault herror hgraph
    rw [analyzeStepwise_eq, Report.map_eq_error_iff] at herror
    obtain ⟨-, hexplains⟩ := hexplained error herror
    rw [hgraph] at hexplains
    cases hexplains with
    | graph hfault => exact Graph.ofCheck_of_fault? hfault
  · intro op
    refine ⟨op.listsAgree, op.opcode_form, ?_⟩
    intro f
    rw [f.executeOpcode_eq op]
    exact hdefect op.form f
  · intro i
    exact ⟨i.form_opcode, hdefect i⟩

/-! ## A method that is too small for its arguments -/

/-- The receiver takes one slot and the argument two, and there are two. -/
def crowded : Method where
  owner := .object
  name := ⟨"crowded", rfl⟩
  type := ⟨[.base .long], none⟩
  flags := ⟨0⟩
  maxLocals := 2
  maxStack := 0
  instructions := [.returnVoid]

/-- It cannot be entered. -/
theorem crowded_cannot_be_entered :
    crowded.maxLocals ≤ Frame.lastSlot ∧ (Graph.single 1).fault? 1 = none ∧
      ∃ fault, (analyze .default crowded (Graph.single 1)).result
        = .error ⟨crowded.text, .methodEntry fault⟩ := by
  have hlast : crowded.maxLocals ≤ Frame.lastSlot := by decide
  have hvalid : (Graph.single 1).fault? 1 = none := by cbv
  obtain ⟨-, hentry, -⟩ := failures_are_explained .default crowded (Graph.single 1)
  exact ⟨hlast, hvalid, (hentry hlast).mpr ⟨hvalid, by decide⟩⟩

end SymbolicFrames
