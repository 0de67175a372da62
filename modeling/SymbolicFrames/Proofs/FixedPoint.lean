-- The frames that an analysis records are a fixed point. Each instruction leads from the frame
-- before it to the frame after it, and whatever control can take along to a block is absorbed
-- by the frame recorded there: to join it in once more changes nothing.
import Mathlib
import SymbolicFrames.Proofs.Settling

namespace SymbolicFrames

namespace Problem

namespace Finished

variable {problem : Problem} {entry : Frame} {q : Progress}

theorem reached_block (h : problem.Finished entry q) {id : BlockId} {b : Block}
    (hid : problem.graph.Reachable id) (hb : problem.graph.block? id = some b) :
    ∃ edges f, problem.graph.nodes[id]? = some ⟨b, edges⟩ ∧ q.worklist.frameAt? id = some f := by
  obtain ⟨node, f, hnode, hf⟩ := h.reached hid
  obtain ⟨node', hnode', rfl⟩ := Graph.block?_eq_some_iff.mp hb
  rw [hnode, Option.some.injEq] at hnode'
  subst hnode'
  exact ⟨node.edges, f, hnode, hf⟩

/-! ## Inside a block -/

theorem executed (h : problem.Finished entry q) {i : Index} {f : Frame}
    (hf : q.frames.before? i = some f) :
    ∃ instruction g, problem.method.instructions[i]? = some instruction ∧
      f.execute instruction = .ok g ∧ q.frames.after? i = some g := by
  rw [Frames.before?, Option.map_eq_some_iff] at hf
  obtain ⟨s, hs, rfl⟩ := hf
  obtain ⟨id, node, e, hnode, hi, he⟩ := h.steady.in_blocks hs
  obtain ⟨s', hs', hrec⟩ := h.step?_eq hnode he hi
  rw [hs, Option.some.injEq] at hrec
  subst hrec
  obtain ⟨instruction, hinstruction, hexec⟩ := Replay.run_executes hs'
  unfold Block.Holds at hi
  rw [Block.getElem?_slice (by unfold Block.size; lia), Nat.add_sub_cancel' hi.1] at hinstruction
  exact ⟨instruction, s.after, hinstruction, hexec, by simp [Frames.after?, hs]⟩

theorem consecutive (h : problem.Finished entry q) {id : BlockId} {b : Block} {i : Index}
    (hid : problem.graph.Reachable id) (hb : problem.graph.block? id = some b)
    (hi : b.Holds i) (hi' : b.Holds (i + 1)) :
    ∃ f, q.frames.after? i = some f ∧ q.frames.before? (i + 1) = some f := by
  obtain ⟨edges, e, hnode, he⟩ := h.reached_block hid hb
  obtain ⟨s, hs, hrec⟩ := h.step?_eq hnode he hi
  obtain ⟨t, ht, hrec'⟩ := h.step?_eq hnode he hi'
  unfold Block.Holds at hi
  rw [show i + 1 - b.start = i - b.start + 1 by lia] at ht
  refine ⟨s.after, by simp [Frames.after?, hrec], ?_⟩
  rw [Frames.before?, hrec', Option.map_some, Replay.run_consecutive hs ht]

theorem step_fits (h : problem.Finished entry q) {i : Index} {s : Step}
    (hs : q.frames.step? i = some s) :
    s.before.Fits problem.method ∧ s.after.Fits problem.method := by
  obtain ⟨id, node, e, hnode, hi, he⟩ := h.steady.in_blocks hs
  obtain ⟨s', hs', hrec⟩ := h.step?_eq hnode he hi
  rw [hs, Option.some.injEq] at hrec
  subst hrec
  have hbefore : s.before.Fits problem.method :=
    replay_fits (h.steady.fits he) _
      (List.mem_append_left _ (List.mem_map_of_mem (List.mem_of_getElem? hs')))
  obtain ⟨instruction, -, hexec⟩ := Replay.run_executes hs'
  exact ⟨hbefore, (Frame.kept_fits problem.method).execute hbefore hexec⟩

/-! ## Between blocks -/

theorem frameAt?_iff (h : problem.Finished entry q) {id : BlockId} {f : Frame} :
    q.worklist.frameAt? id = some f ↔
      ∃ b, problem.graph.block? id = some b ∧ q.frames.before? b.start = some f := by
  constructor
  · intro hf
    obtain ⟨node, hnode⟩ := h.steady.exists_node hf
    exact ⟨node.block, Graph.block?_eq_some_iff.mpr ⟨node, hnode, rfl⟩,
      h.before?_start hnode hf⟩
  · rintro ⟨b, hb, hf⟩
    obtain ⟨s, hs, rfl⟩ := Option.map_eq_some_iff.mp hf
    obtain ⟨id', node, e, hnode, hholds, he⟩ := h.steady.in_blocks hs
    have hnode' := Graph.block?_eq_some_iff.mpr ⟨node, hnode, rfl⟩
    have hstart : b.Holds b.start := ⟨Nat.le_refl _, h.valid.nonempty hb⟩
    -- The block in which the frame is recorded is the one that starts there.
    have hid := h.valid.apart hb hnode' hstart hholds
    subst hid
    rw [hb, Option.some.injEq] at hnode'
    have hbefore := h.before?_start hnode he
    rw [← hnode', hf, Option.some.injEq] at hbefore
    rw [he, hbefore]

/-- A frame has been taken in exactly if the one recorded where it goes absorbs it. -/
theorem takes_iff (h : problem.Finished entry q) {d : Delivery} :
    q.worklist.Takes d ↔ ∃ b g, problem.graph.block? d.target = some b ∧
      q.frames.before? b.start = some g ∧ g.Absorbs d.frame := by
  constructor
  · rintro ⟨g, hg, habsorbs⟩
    obtain ⟨b, hb, hbefore⟩ := h.frameAt?_iff.mp hg
    exact ⟨b, g, hb, hbefore, habsorbs⟩
  · rintro ⟨b, g, hb, hbefore, habsorbs⟩
    exact ⟨g, h.frameAt?_iff.mpr ⟨b, hb, hbefore⟩, habsorbs⟩

theorem entered (h : problem.Finished entry q) :
    ∃ b f, problem.graph.block? Graph.entry = some b ∧
      q.frames.before? b.start = some f ∧ f.Absorbs entry :=
  h.takes_iff.mp h.steady.entered

theorem followed (h : problem.Finished entry q) {id : BlockId} {b : Block} {edge : Edge}
    (hid : problem.graph.Reachable id) (hb : problem.graph.block? id = some b)
    (hedge : edge ∈ problem.graph.successors id) (hkind : edge.kind = .normal) :
    ∃ target f g, problem.graph.block? edge.target = some target ∧
      q.frames.after? (b.stop - 1) = some f ∧ q.frames.before? target.start = some g ∧
      g.Absorbs f := by
  obtain ⟨edges, e, hnode, he⟩ := h.reached_block hid hb
  rw [Graph.successors_of_node hnode] at hedge
  have hsent : (⟨edge.target, (problem.replay b e).exit⟩ : Delivery)
      ∈ problem.sends ⟨b, edges⟩ e :=
    Replay.mem_deliveries_iff.mpr
      (Or.inr ⟨(h.settled hnode he).no_fault, edge, hedge, hkind, rfl⟩)
  obtain ⟨target, g, htarget, hg, habsorbs⟩ := h.takes_iff.mp (h.takes_sent hnode he hsent)
  exact ⟨target, _, g, htarget, h.after?_last hnode he, hg, habsorbs⟩

theorem handled (h : problem.Finished entry q) {id : BlockId} {b : Block} {edge : Edge}
    {caught : Option ClassName} (hid : problem.graph.Reachable id)
    (hb : problem.graph.block? id = some b) (hedge : edge ∈ problem.graph.successors id)
    (hkind : edge.kind = .exception caught) :
    ∃ handler g, problem.graph.block? edge.target = some handler ∧
      q.frames.before? handler.start = some g ∧
      (∀ i, b.Holds i → ∃ f, q.frames.before? i = some f ∧
        g.Absorbs (f.handler (.object (caught.getD problem.settings.defaultException)))) ∧
      ∃ f, q.frames.after? (b.stop - 1) = some f ∧
        g.Absorbs (f.handler (.object (caught.getD problem.settings.defaultException))) := by
  obtain ⟨edges, e, hnode, he⟩ := h.reached_block hid hb
  rw [Graph.successors_of_node hnode] at hedge
  have hsent : ∀ f ∈ (problem.replay b e).exposed,
      (⟨edge.target, f.handler (.object (caught.getD problem.settings.defaultException))⟩ :
        Delivery) ∈ problem.sends ⟨b, edges⟩ e := fun f hf =>
    Replay.mem_deliveries_iff.mpr (Or.inl ⟨edge, hedge, caught, hkind, f, hf, rfl⟩)
  obtain ⟨handler, g, hhandler, hg, hexit⟩ :=
    h.takes_iff.mp (h.takes_sent hnode he (hsent _ (Replay.exit_mem_exposed _)))
  refine ⟨handler, g, hhandler, hg, ?_, _, h.after?_last hnode he, hexit⟩
  intro i hi
  obtain ⟨f, hf, hexposed⟩ := h.before?_mem_exposed hnode he hi
  obtain ⟨handler', g', hhandler', hg', habsorbs⟩ :=
    h.takes_iff.mp (h.takes_sent hnode he (hsent f hexposed))
  -- All of these deliveries go to one block, so it is one frame that absorbs them.
  rw [hhandler, Option.some.injEq] at hhandler'
  subst hhandler'
  rw [hg, Option.some.injEq] at hg'
  subst hg'
  exact ⟨f, hf, habsorbs⟩

end Finished

/-! ## The fixed point -/

/-- Frames that fit together: nothing changes when every block is executed and every edge
followed once more. -/
structure FixedPoint (problem : Problem) (frames : Frames) : Prop where
  /-- An instruction leads from the frame before it to the frame after it. -/
  executed : ∀ {i f}, frames.before? i = some f →
    ∃ instruction g, problem.method.instructions[i]? = some instruction ∧
      f.execute instruction = .ok g ∧ frames.after? i = some g
  /-- Within a block, an instruction starts where the one before it ended. -/
  consecutive : ∀ {id b i}, problem.graph.Reachable id → problem.graph.block? id = some b →
    b.Holds i → b.Holds (i + 1) →
    ∃ f, frames.after? i = some f ∧ frames.before? (i + 1) = some f
  /-- The first block absorbs the frame on entry to the method. -/
  entered : ∃ b e f, problem.graph.block? Graph.entry = some b ∧
    problem.method.entryFrame = .ok e ∧ frames.before? b.start = some f ∧ f.Absorbs e
  /-- A successor absorbs the frame at the end of the block. -/
  followed : ∀ {id b edge}, problem.graph.Reachable id → problem.graph.block? id = some b →
    edge ∈ problem.graph.successors id → edge.kind = .normal →
    ∃ target f g, problem.graph.block? edge.target = some target ∧
      frames.after? (b.stop - 1) = some f ∧ frames.before? target.start = some g ∧ g.Absorbs f
  /-- A handler absorbs the frame before every instruction of the block and the one at its
  end, each with the exception in place of the stack. -/
  handled : ∀ {id b edge caught}, problem.graph.Reachable id →
    problem.graph.block? id = some b → edge ∈ problem.graph.successors id →
    edge.kind = .exception caught →
    ∃ handler g, problem.graph.block? edge.target = some handler ∧
      frames.before? handler.start = some g ∧
      (∀ i, b.Holds i → ∃ f, frames.before? i = some f ∧
        g.Absorbs (f.handler (.object (caught.getD problem.settings.defaultException)))) ∧
      ∃ f, frames.after? (b.stop - 1) = some f ∧
        g.Absorbs (f.handler (.object (caught.getD problem.settings.defaultException)))

theorem Finished.fixedPoint {problem : Problem} {entry : Frame} {q : Progress}
    (h : problem.Finished entry q) : problem.FixedPoint q.frames := by
  refine ⟨h.executed, h.consecutive, ?_, h.followed, h.handled⟩
  obtain ⟨b, f, hb, hf, habsorbs⟩ := h.entered
  exact ⟨b, entry, f, hb, h.entry_eq, hf, habsorbs⟩

end Problem

/-- The frames of every analysis that succeeds are a fixed point. -/
theorem recorded_frames_are_a_fixed_point {settings : Settings} {method : Method} {graph : Graph}
    {frames : Frames} (h : (analyze settings method graph).result = .ok frames) :
    Problem.FixedPoint ⟨settings, method, graph⟩ frames := by
  obtain ⟨entry, q, hfinished, rfl⟩ := Problem.finished_of_outcome (analyze_eq_ok_iff.mp h)
  exact hfinished.fixedPoint

/-! ## A loop with a handler -/

/-- Counts its argument down to zero, in a loop that an exception may leave. -/
def countdown : Method where
  owner := .object
  name := ⟨"countdown", rfl⟩
  type := ⟨[.base .int], none⟩
  flags := ⟨AccessFlag.static.mask⟩
  maxLocals := 2
  maxStack := 1
  instructions :=
    [.push .null, .store .ref 1,
      .increment 0 (-1), .load .int 0, .unary (.ifZero .ne 2),
      .store .ref 1,
      .returnVoid]

def countdownGraph : Graph where
  nodes :=
    #[⟨⟨0, 2⟩, [⟨1, .normal⟩]⟩,
      ⟨⟨2, 5⟩, [⟨1, .normal⟩, ⟨3, .normal⟩, ⟨2, .exception none⟩]⟩,
      ⟨⟨5, 6⟩, [⟨3, .normal⟩]⟩,
      ⟨⟨6, 7⟩, []⟩]
  dangling := []

/-- The argument in the first local, and what was caught, if anything, in the second. -/
def countdownFrame (argument caught : Value) (stack : List Value) : Frame :=
  { locals := [argument, caught], stack, maxStack := 1 }

def countdownFrames : Frames where
  steps :=
    let frame := countdownFrame (.int none)
    #[some ⟨frame .uninitialized [], frame .uninitialized [.null]⟩,
      some ⟨frame .uninitialized [.null], frame .null []⟩,
      some ⟨frame .null [], frame .null []⟩,
      some ⟨frame .null [], frame .null [.int none]⟩,
      some ⟨frame .null [.int none], frame .null []⟩,
      some ⟨frame .null [.object .throwable], frame (.object .throwable) []⟩,
      some ⟨frame .top [], frame .top []⟩]

theorem analyze_countdown :
    (analyze .default countdown countdownGraph).result = .ok countdownFrames :=
  result_analyze_of_runWithin 10 (countdownFrame (.int none) .uninitialized []) (by cbv)
    (by decide +kernel) (by decide +kernel)

theorem countdown_frames_are_a_fixed_point :
    (analyze .default countdown countdownGraph).result = .ok countdownFrames ∧
      Problem.FixedPoint ⟨.default, countdown, countdownGraph⟩ countdownFrames :=
  ⟨analyze_countdown, recorded_frames_are_a_fixed_point analyze_countdown⟩

end SymbolicFrames
