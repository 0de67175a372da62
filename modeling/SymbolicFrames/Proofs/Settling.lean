-- The invariant of the analysis. A block that does not wait is settled: its frames are
-- recorded as they follow from the frame on its entry, and all that leaves it has been taken
-- in where it goes. Main statement: when nothing waits any more, every block that control
-- can reach is settled.
import SymbolicFrames.Proofs.Shapes

namespace SymbolicFrames

namespace Problem

/-! ## The invariant -/

/-- The block has been visited with this frame on its entry, and nothing has to be done about
it again. -/
structure Settled (problem : Problem) (w : Worklist) (frames : Frames) (node : Node)
    (f : Frame) : Prop where
  no_fault : (problem.replay node.block f).fault = none
  recorded : ∀ k < node.block.size,
    frames.step? (node.block.start + k) = (problem.replay node.block f).steps[k]?
  delivered : ∀ d ∈ problem.sends node f, w.Takes d

structure Steady (problem : Problem) (entry : Frame) (p : Progress) : Prop where
  sound : p.worklist.Sound
  size_eq : p.worklist.entries.size = problem.graph.size
  frames_size : p.frames.size = problem.method.instructions.length
  /-- Every frame is one of the method. -/
  fits : ∀ {id f}, p.worklist.frameAt? id = some f → f.Fits problem.method
  /-- The frame on entry to the method has been taken in by the first block. -/
  entered : p.worklist.Takes ⟨Graph.entry, entry⟩
  /-- A block that has been reached waits or is settled. -/
  settled : ∀ {id node f}, problem.graph.nodes[id]? = some node →
    p.worklist.frameAt? id = some f → id ∉ p.worklist.queue →
    problem.Settled p.worklist p.frames node f
  /-- Frames are recorded in blocks that have been reached, and nowhere else. -/
  in_blocks : ∀ {i s}, p.frames.step? i = some s → ∃ id node f,
    problem.graph.nodes[id]? = some node ∧ node.block.Holds i ∧
      p.worklist.frameAt? id = some f

theorem Steady.exists_node {problem : Problem} {entry f : Frame} {p : Progress} {id : BlockId}
    (h : problem.Steady entry p) (hf : p.worklist.frameAt? id = some f) :
    ∃ node, problem.graph.nodes[id]? = some node :=
  Graph.exists_node_of_lt (h.size_eq ▸ Worklist.lt_size_of_frameAt? hf)

/-! ## At the start -/

theorem steady_start {problem : Problem} {entry : Frame} {w : Worklist}
    (h : problem.Begins entry w) : problem.Steady entry (problem.start w) := by
  have hreached : ∀ {id f}, w.frameAt? id = some f → id = Graph.entry ∧ f = entry := h.frameAt?
  have hlt := h.entry_lt
  obtain ⟨hvalid, hentry, rfl⟩ := h
  have hsound := Worklist.sound_ofSize problem.graph.size
  refine ⟨Worklist.sound_setEntry hsound hlt entry, ?_, ?_, ?_, ?_, ?_, ?_⟩
  · simp [start, Worklist.ofSize]
  · simp [start, Frames.ofSize, Frames.size]
  · intro id f hf
    obtain ⟨-, rfl⟩ := hreached hf
    exact Frame.fits_entry hentry
  · exact ⟨entry, Worklist.frameAt?_setEntry_self hlt entry, entry.absorbs_self⟩
  · intro id node f _ hf hqueue
    -- The only block with a frame is the first one, and it waits.
    obtain ⟨rfl, -⟩ := hreached hf
    exact absurd ((Worklist.mem_queue_setEntry hsound).mpr (Or.inr rfl)) hqueue
  · intro i s hs
    simp [start, Frames.step?_ofSize] at hs

/-! ## Along a visit -/

theorem length_replay_steps {problem : Problem} {node : Node} {f : Frame} {id : BlockId}
    (hvalid : problem.graph.Valid problem.method.instructions.length)
    (hnode : problem.graph.nodes[id]? = some node)
    (hfault : (problem.replay node.block f).fault = none) :
    (problem.replay node.block f).steps.length = node.block.size := by
  have hwithin := hvalid.within (Graph.block?_eq_some_iff.mpr ⟨node, hnode, rfl⟩)
  unfold replay at hfault ⊢
  rw [Replay.length_run_steps hfault, Block.length_slice hwithin]

/-- What a visit records lies within its block. -/
theorem step?_record_of_not_holds {frames : Frames} {b : Block} {steps : List Step} {i : Index}
    (hlen : steps.length = b.size) (hi : ¬ b.Holds i) :
    (frames.record b.start steps).step? i = frames.step? i := by
  apply Frames.step?_record_outside
  unfold Block.Holds at hi
  unfold Block.size at hlen
  lia

section Visit

variable {problem : Problem} {entry : Frame} {p next : Progress} {id : BlockId} {frame : Frame}
  {waiting : Worklist} {node : Node}

/-- A frame once taken in stays so, and what a visit sends on is taken in. -/
theorem takes_visit (hsound : p.worklist.Sound)
    (hpop : p.worklist.pop? = some (id, frame, waiting))
    (hvisit : (problem.visit p id frame waiting).result = .ok next)
    (hnode : problem.graph.nodes[id]? = some node) {d : Delivery}
    (hd : p.worklist.Takes d ∨ d ∈ problem.sends node frame) : next.worklist.Takes d := by
  obtain ⟨-, -, hentries, hwaiting⟩ := Worklist.pop?_cases hsound hpop
  obtain ⟨node', hnode', -, -, hdeliver, -⟩ := visit_cases hvisit
  rw [hnode, Option.some.injEq] at hnode'
  subst hnode'
  rcases hd with ⟨f, hf, habsorbs⟩ | hd
  · refine Worklist.Takes.grows ⟨f, ?_, habsorbs⟩ (Worklist.grows_deliver hwaiting hdeliver)
    rw [Worklist.frameAt?_congr hentries]
    exact hf
  · exact Worklist.takes_deliver hwaiting hdeliver d hd

/-- A block that does not wait after a visit has the frame it had before. It is the one that
was visited, or it did not wait before either. -/
theorem frameAt?_of_not_waiting (hsound : p.worklist.Sound)
    (hpop : p.worklist.pop? = some (id, frame, waiting))
    (hvisit : (problem.visit p id frame waiting).result = .ok next) {c : BlockId} {f : Frame}
    (hf : next.worklist.frameAt? c = some f) (hc : c ∉ next.worklist.queue) :
    p.worklist.frameAt? c = some f ∧ (c = id ∨ c ∉ p.worklist.queue) := by
  obtain ⟨hqueue, -, hentries, hwaiting⟩ := Worklist.pop?_cases hsound hpop
  obtain ⟨_, -, -, -, hdeliver, -⟩ := visit_cases hvisit
  have hgrows := Worklist.grows_deliver hwaiting hdeliver
  constructor
  · rw [← Worklist.frameAt?_congr hentries, ← hf]
    by_contra hne
    exact hc (hgrows.changed (Ne.symm hne))
  · by_cases hcid : c = id
    · exact Or.inl hcid
    · right
      rw [hqueue, List.mem_cons, not_or]
      exact ⟨hcid, fun hmem => hc (hgrows.queue hmem)⟩

theorem settled_visited (hvalid : problem.graph.Valid problem.method.instructions.length)
    (hp : problem.Steady entry p) (hpop : p.worklist.pop? = some (id, frame, waiting))
    (hvisit : (problem.visit p id frame waiting).result = .ok next)
    (hnode : problem.graph.nodes[id]? = some node) :
    problem.Settled next.worklist next.frames node frame := by
  obtain ⟨node', hnode', -, hfault, -, hframes, -⟩ := visit_cases hvisit
  rw [hnode, Option.some.injEq] at hnode'
  subst hnode'
  have hlen := length_replay_steps hvalid hnode hfault
  have hwithin := hvalid.within (Graph.block?_eq_some_iff.mpr ⟨node, hnode, rfl⟩)
  refine ⟨hfault, ?_, fun d hd => takes_visit hp.sound hpop hvisit hnode (Or.inr hd)⟩
  intro k hk
  rw [hframes, Frames.step?_record_inside _ (hlen ▸ hk)]
  rw [hlen, hp.frames_size]
  unfold Block.size at hk ⊢
  lia

/-- A visit leaves other blocks as settled as they were: no two blocks share an instruction. -/
theorem settled_kept (hvalid : problem.graph.Valid problem.method.instructions.length)
    (hp : problem.Steady entry p) (hpop : p.worklist.pop? = some (id, frame, waiting))
    (hvisit : (problem.visit p id frame waiting).result = .ok next) {c : BlockId} {f : Frame}
    (hc : problem.graph.nodes[c]? = some node) (hcid : c ≠ id)
    (hsettled : problem.Settled p.worklist p.frames node f) :
    problem.Settled next.worklist next.frames node f := by
  obtain ⟨visited, hvisited, -, hfault, -, hframes, -⟩ := visit_cases hvisit
  obtain ⟨hno, hrec, hdel⟩ := hsettled
  refine ⟨hno, ?_, fun d hd => takes_visit hp.sound hpop hvisit hvisited (Or.inl (hdel d hd))⟩
  intro k hk
  rw [← hrec k hk, hframes]
  apply step?_record_of_not_holds (length_replay_steps hvalid hvisited hfault)
  intro hholds
  apply hcid
  apply hvalid.apart (Graph.block?_eq_some_iff.mpr ⟨node, hc, rfl⟩)
    (Graph.block?_eq_some_iff.mpr ⟨visited, hvisited, rfl⟩) _ hholds
  unfold Block.size at hk
  unfold Block.Holds
  lia

theorem steady_visit (hvalid : problem.graph.Valid problem.method.instructions.length)
    (hp : problem.Steady entry p) (hpop : p.worklist.pop? = some (id, frame, waiting))
    (hvisit : (problem.visit p id frame waiting).result = .ok next) :
    problem.Steady entry next := by
  obtain ⟨-, hframe, hentries, hsound⟩ := Worklist.pop?_cases hp.sound hpop
  obtain ⟨node, hnode, -, hfault, hdeliver, hframes, -⟩ := visit_cases hvisit
  have hgrows := Worklist.grows_deliver hsound hdeliver
  have hreached : ∀ {c f}, p.worklist.frameAt? c = some f →
      ∃ f', next.worklist.frameAt? c = some f' := by
    intro c f hf
    rw [← Worklist.frameAt?_congr hentries] at hf
    obtain ⟨f', hf', -⟩ := hgrows.absorbs hf
    exact ⟨f', hf'⟩
  refine ⟨Worklist.sound_deliver hsound hdeliver, ?_, ?_, ?_,
    takes_visit hp.sound hpop hvisit hnode (Or.inl hp.entered), ?_, ?_⟩
  · rw [hgrows.size_eq, hentries, hp.size_eq]
  · rw [hframes, Frames.size_record, hp.frames_size]
  · intro c f hf
    apply Worklist.forall_deliver _ (sends_fit (hp.fits hframe)) _ hdeliver hf
    · intro b f g merged changed hf hg hmerge
      exact hf.merge hg hmerge
    · intro b f hf
      rw [Worklist.frameAt?_congr hentries] at hf
      exact hp.fits hf
  · intro c cnode f hc hf hwait
    obtain ⟨hold, hcid⟩ := frameAt?_of_not_waiting hp.sound hpop hvisit hf hwait
    by_cases heq : c = id
    · subst heq
      rw [hframe, Option.some.injEq] at hold
      subst hold
      exact settled_visited hvalid hp hpop hvisit hc
    · have hsettled := hp.settled hc hold (hcid.resolve_left heq)
      exact settled_kept hvalid hp hpop hvisit hc heq hsettled
  · intro i s hs
    rw [hframes] at hs
    by_cases hi : node.block.Holds i
    · obtain ⟨f', hf'⟩ := hreached hframe
      exact ⟨id, node, f', hnode, hi, hf'⟩
    · rw [step?_record_of_not_holds (length_replay_steps hvalid hnode hfault) hi] at hs
      obtain ⟨c, cnode, f, hc, hholds, hf⟩ := hp.in_blocks hs
      obtain ⟨f', hf'⟩ := hreached hf
      exact ⟨c, cnode, f', hc, hholds, hf'⟩

end Visit

/-! ## At the end -/

/-- Where an analysis ends: nothing waits, and the invariant holds. -/
structure Finished (problem : Problem) (entry : Frame) (q : Progress) : Prop where
  valid : problem.graph.Valid problem.method.instructions.length
  entry_eq : problem.method.entryFrame = .ok entry
  steady : problem.Steady entry q
  queue_nil : q.worklist.queue = []

theorem finished_of_run {problem : Problem} {entry : Frame} {w : Worklist} {q : Progress}
    {visits : List (BlockId × Frame)} (hbegins : problem.Begins entry w)
    (hrun : problem.Run (problem.start w) visits q) (hend : q.worklist.pop? = none) :
    problem.Finished entry q := by
  have hsteady : problem.Steady entry q :=
    hrun.keeps (steady_visit hbegins.valid) (steady_start hbegins)
  exact ⟨hbegins.valid, hbegins.entry_eq, hsteady,
    (Worklist.pop?_eq_none_iff hsteady.sound).mp hend⟩

theorem finished_of_outcome {problem : Problem} {frames : Frames}
    (h : problem.outcome.result = .ok frames) :
    ∃ entry q, problem.Finished entry q ∧ q.frames = frames := by
  obtain ⟨entry, w, q, hbegins, hrun, hend, hframes⟩ := outcome_eq_ok h
  exact ⟨entry, q, finished_of_run hbegins hrun hend, hframes⟩

namespace Finished

variable {problem : Problem} {entry : Frame} {q : Progress}

theorem settled (h : problem.Finished entry q) {id : BlockId} {node : Node} {f : Frame}
    (hnode : problem.graph.nodes[id]? = some node) (hf : q.worklist.frameAt? id = some f) :
    problem.Settled q.worklist q.frames node f := by
  apply h.steady.settled hnode hf
  rw [h.queue_nil]
  exact List.not_mem_nil

/-- Every step of the replay of a settled block is recorded. -/
theorem step?_eq (h : problem.Finished entry q) {id : BlockId} {node : Node} {f : Frame}
    (hnode : problem.graph.nodes[id]? = some node) (hf : q.worklist.frameAt? id = some f)
    {i : Index} (hi : node.block.Holds i) :
    ∃ s, (problem.replay node.block f).steps[i - node.block.start]? = some s ∧
      q.frames.step? i = some s := by
  have hs := h.settled hnode hf
  have hlen := length_replay_steps h.valid hnode hs.no_fault
  unfold Block.Holds at hi
  have hk : i - node.block.start < node.block.size := by
    unfold Block.size
    lia
  have hlt : i - node.block.start < (problem.replay node.block f).steps.length := hlen ▸ hk
  have hstep := hs.recorded _ hk
  rw [Nat.add_sub_cancel' hi.1] at hstep
  rw [hstep]
  exact ⟨_, List.getElem?_eq_getElem hlt, List.getElem?_eq_getElem hlt⟩

/-- The frame recorded before a block's first instruction is the frame on its entry. -/
theorem before?_start (h : problem.Finished entry q) {id : BlockId} {node : Node} {f : Frame}
    (hnode : problem.graph.nodes[id]? = some node) (hf : q.worklist.frameAt? id = some f) :
    q.frames.before? node.block.start = some f := by
  have hlt := h.valid.nonempty (Graph.block?_eq_some_iff.mpr ⟨node, hnode, rfl⟩)
  obtain ⟨s, hs, hrec⟩ := h.step?_eq hnode hf ⟨Nat.le_refl _, hlt⟩
  rw [Nat.sub_self] at hs
  rw [Frames.before?, hrec, Option.map_some, Replay.run_first hs]

/-- The frame recorded after a block's last instruction is the one that leaves it. -/
theorem after?_last (h : problem.Finished entry q) {id : BlockId} {node : Node} {f : Frame}
    (hnode : problem.graph.nodes[id]? = some node) (hf : q.worklist.frameAt? id = some f) :
    q.frames.after? (node.block.stop - 1) = some (problem.replay node.block f).exit := by
  have hlt := h.valid.nonempty (Graph.block?_eq_some_iff.mpr ⟨node, hnode, rfl⟩)
  have hlen := length_replay_steps h.valid hnode (h.settled hnode hf).no_fault
  have hholds : node.block.Holds (node.block.stop - 1) := by
    unfold Block.Holds
    lia
  obtain ⟨s, hs, hrec⟩ := h.step?_eq hnode hf hholds
  rw [Frames.after?, hrec, Option.map_some]
  congr 1
  refine (Replay.run_last hs ?_).symm
  change _ = (problem.replay node.block f).steps.length
  rw [hlen]
  unfold Block.size
  lia

/-- A frame before an instruction is one in which an exception can arise. -/
theorem before?_mem_exposed (h : problem.Finished entry q) {id : BlockId} {node : Node}
    {f : Frame} (hnode : problem.graph.nodes[id]? = some node)
    (hf : q.worklist.frameAt? id = some f) {i : Index} (hi : node.block.Holds i) :
    ∃ g, q.frames.before? i = some g ∧ g ∈ (problem.replay node.block f).exposed := by
  obtain ⟨s, hs, hrec⟩ := h.step?_eq hnode hf hi
  refine ⟨s.before, by simp [Frames.before?, hrec], ?_⟩
  exact List.mem_append_left _ (List.mem_map_of_mem (List.mem_of_getElem? hs))

theorem takes_sent (h : problem.Finished entry q) {id : BlockId} {node : Node} {f : Frame}
    (hnode : problem.graph.nodes[id]? = some node) (hf : q.worklist.frameAt? id = some f)
    {d : Delivery} (hd : d ∈ problem.sends node f) : q.worklist.Takes d :=
  (h.settled hnode hf).delivered d hd

theorem sends_along (h : problem.Finished entry q) {id : BlockId} {node : Node} {f : Frame}
    (hnode : problem.graph.nodes[id]? = some node) (hf : q.worklist.frameAt? id = some f)
    {edge : Edge} (hedge : edge ∈ node.edges) :
    ∃ d ∈ problem.sends node f, d.target = edge.target := by
  cases hkind : edge.kind with
  | normal =>
    exact ⟨_, Replay.mem_deliveries_iff.mpr
      (Or.inr ⟨(h.settled hnode hf).no_fault, edge, hedge, hkind, rfl⟩), rfl⟩
  | exception caught =>
    exact ⟨_, Replay.mem_deliveries_iff.mpr
      (Or.inl ⟨edge, hedge, caught, hkind, _, Replay.exit_mem_exposed _, rfl⟩), rfl⟩

/-- Every block that control can reach has been reached. -/
theorem reached (h : problem.Finished entry q) {id : BlockId}
    (hid : problem.graph.Reachable id) :
    ∃ node f, problem.graph.nodes[id]? = some node ∧ q.worklist.frameAt? id = some f := by
  induction hid with
  | entry =>
    obtain ⟨f, hf, -⟩ := h.steady.entered
    obtain ⟨node, hnode⟩ := Graph.exists_node_of_lt h.valid.has_entry
    exact ⟨node, f, hnode, hf⟩
  | @along id edge _ hedge ih =>
    obtain ⟨node, f, hnode, hf⟩ := ih
    obtain ⟨target, htarget⟩ := Graph.exists_node_of_lt (h.valid.target_lt hedge)
    rw [Graph.successors_of_node hnode] at hedge
    obtain ⟨d, hd, heq⟩ := h.sends_along hnode hf hedge
    obtain ⟨g, hg, -⟩ := h.takes_sent hnode hf hd
    exact ⟨target, g, htarget, heq ▸ hg⟩

end Finished

end Problem

end SymbolicFrames
