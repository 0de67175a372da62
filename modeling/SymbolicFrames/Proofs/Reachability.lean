-- Where an analysis records frames. What it carries along edges it carries from block to block
-- through the whole run, and so no frame gets to a block that control cannot reach. Main
-- statement: an instruction has frames exactly if it lies in a block that control can reach.
import SymbolicFrames.Proofs.FixedPoint

namespace SymbolicFrames

/-- The instruction lies in a block that control can reach. -/
def Graph.Reaches (g : Graph) (i : Index) : Prop :=
  ∃ id b, g.Reachable id ∧ g.block? id = some b ∧ b.Holds i

namespace Problem

variable {problem : Problem} {entry : Frame}

/-! ## What an analysis carries from block to block -/

/-- Holds of the first block and the frame on entry to the method, and passes on along every
edge and through every join. -/
structure Carries (problem : Problem) (P : BlockId → Frame → Prop) : Prop where
  entered : ∀ {f}, problem.method.entryFrame = .ok f → P Graph.entry f
  sent : ∀ {id node f}, problem.graph.nodes[id]? = some node → P id f →
    ∀ d ∈ problem.sends node f, P d.target d.frame
  joined : ∀ {id f g merged changed}, P id f → P id g → f.merge g = .ok (merged, changed) →
    P id merged

namespace Carries

variable {P : BlockId → Frame → Prop}

theorem visit (hP : problem.Carries P) {p next : Progress} {id : BlockId} {frame : Frame}
    {waiting : Worklist} (hsound : p.worklist.Sound)
    (hp : ∀ {b f}, p.worklist.frameAt? b = some f → P b f)
    (hpop : p.worklist.pop? = some (id, frame, waiting))
    (hvisit : (problem.visit p id frame waiting).result = .ok next) {b : BlockId} {f : Frame}
    (hf : next.worklist.frameAt? b = some f) : P b f := by
  obtain ⟨-, hframe, hentries, -⟩ := Worklist.pop?_cases hsound hpop
  obtain ⟨node, hnode, -, -, hdeliver, -⟩ := visit_cases hvisit
  apply Worklist.forall_deliver (P := P) hP.joined (hP.sent hnode (hp hframe)) _ hdeliver hf
  intro c g hg
  rw [Worklist.frameAt?_congr hentries] at hg
  exact hp hg

/-- What is carried holds of every block that has been reached, however far the run got. -/
theorem run (hP : problem.Carries P) {w : Worklist} {q : Progress}
    {visits : List (BlockId × Frame)} (hbegins : problem.Begins entry w)
    (hrun : problem.Run (problem.start w) visits q) :
    problem.Steady entry q ∧ ∀ b f, q.worklist.frameAt? b = some f → P b f := by
  refine @Run.keeps problem
    (fun p => problem.Steady entry p ∧ ∀ b f, p.worklist.frameAt? b = some f → P b f) ?_
    _ _ _ hrun ?_
  · rintro p next id frame waiting ⟨hsteady, hp⟩ hpop hvisit
    refine ⟨steady_visit hbegins.valid hsteady hpop hvisit, ?_⟩
    intro b f hf
    exact hP.visit hsteady.sound (fun hg => hp _ _ hg) hpop hvisit hf
  · refine ⟨steady_start hbegins, ?_⟩
    intro b f hf
    obtain ⟨rfl, rfl⟩ := hbegins.frameAt? hf
    exact hP.entered hbegins.entry_eq

theorem finished (hP : problem.Carries P) {frames : Frames}
    (h : problem.outcome.result = .ok frames) :
    ∃ entry q, problem.Finished entry q ∧ q.frames = frames ∧
      ∀ b f, q.worklist.frameAt? b = some f → P b f := by
  obtain ⟨entry, w, q, hbegins, hrun, hend, hframes⟩ := outcome_eq_ok h
  exact ⟨entry, q, finished_of_run hbegins hrun hend, hframes, (hP.run hbegins hrun).2⟩

end Carries

/-! ## Blocks -/

/-- What leaves a block goes along one of its edges. -/
theorem target_of_mem_sends {node : Node} {f : Frame} {d : Delivery}
    (hd : d ∈ problem.sends node f) : ∃ edge ∈ node.edges, d.target = edge.target := by
  rcases Replay.mem_deliveries_iff.mp hd with ⟨edge, hedge, _, _, _, _, rfl⟩ |
    ⟨_, edge, hedge, _, rfl⟩
  · exact ⟨edge, hedge, rfl⟩
  · exact ⟨edge, hedge, rfl⟩

theorem reachable_of_mem_sends {id : BlockId} {node : Node} {f : Frame} {d : Delivery}
    (hid : problem.graph.Reachable id) (hnode : problem.graph.nodes[id]? = some node)
    (hd : d ∈ problem.sends node f) : problem.graph.Reachable d.target := by
  obtain ⟨edge, hedge, htarget⟩ := target_of_mem_sends hd
  rw [← Graph.successors_of_node hnode] at hedge
  rw [htarget]
  exact hid.along hedge

/-- No frame gets to a block that control cannot reach. -/
theorem carries_reachable (problem : Problem) :
    problem.Carries fun id _ => problem.graph.Reachable id where
  entered := fun _ => .entry
  sent := fun hnode hid _ hd => reachable_of_mem_sends hid hnode hd
  joined := fun hid _ _ => hid

/-! ## Recorded steps -/

/-- A recorded step is one of the replay of its block. -/
theorem Finished.step?_origin {q : Progress} (h : problem.Finished entry q) {i : Index} {s : Step}
    (hs : q.frames.step? i = some s) :
    ∃ id node e, problem.graph.nodes[id]? = some node ∧ node.block.Holds i ∧
      q.worklist.frameAt? id = some e ∧
      (problem.replay node.block e).steps[i - node.block.start]? = some s := by
  obtain ⟨id, node, e, hnode, hi, he⟩ := h.steady.in_blocks hs
  obtain ⟨s', hs', hrec⟩ := h.step?_eq hnode he hi
  rw [hs] at hrec
  exact ⟨id, node, e, hnode, hi, he, hrec ▸ hs'⟩

/-- Holds of the frame on entry to the method, and on through everything that can befall a
frame within the reach of control: an instruction, an exception that is caught, a join. -/
structure Upholds (problem : Problem) (P : Frame → Prop) : Prop where
  entered : ∀ {f}, problem.method.entryFrame = .ok f → P f
  kept : Frame.Kept P
  caught : ∀ {id edge caught f}, problem.graph.Reachable id →
    edge ∈ problem.graph.successors id → edge.kind = .exception caught → P f →
    P (f.handler (.object (caught.getD problem.settings.defaultException)))
  joined : ∀ {f g merged changed}, P f → P g → f.merge g = .ok (merged, changed) → P merged

namespace Upholds

variable {P : Frame → Prop}

theorem carries (hP : problem.Upholds P) :
    problem.Carries fun id f => problem.graph.Reachable id ∧ P f where
  entered := fun hf => ⟨.entry, hP.entered hf⟩
  sent := by
    rintro id node f hnode ⟨hid, hf⟩ d hd
    have hexposed : ∀ g ∈ (problem.replay node.block f).exposed, P g :=
      Replay.run_forall (fun hg hexec => hP.kept.execute hg hexec) hf
    refine ⟨reachable_of_mem_sends hid hnode hd, ?_⟩
    rcases Replay.mem_deliveries_iff.mp hd with ⟨edge, hedge, caught, hkind, g, hg, rfl⟩ |
      ⟨_, _, _, _, rfl⟩
    · rw [← Graph.successors_of_node hnode] at hedge
      exact hP.caught hid hedge hkind (hexposed g hg)
    · exact hexposed _ (Replay.exit_mem_exposed _)
  joined := fun hf hg hmerge => ⟨hf.1, hP.joined hf.2 hg.2 hmerge⟩

/-- What is upheld holds of every frame that is recorded. -/
theorem recorded (hP : problem.Upholds P) {frames : Frames}
    (h : problem.outcome.result = .ok frames) {i : Index} {f : Frame}
    (hf : frames.before? i = some f ∨ frames.after? i = some f) : P f := by
  obtain ⟨entry, q, hfinished, rfl, hentries⟩ := hP.carries.finished h
  have hstep : ∀ {s}, q.frames.step? i = some s → P s.before ∧ P s.after := by
    intro s hs
    obtain ⟨id, node, e, -, -, he, hreplayed⟩ := hfinished.step?_origin hs
    have hbefore : P s.before :=
      Replay.run_forall (fun hg hexec => hP.kept.execute hg hexec) (hentries id e he).2 _
        (List.mem_append_left _ (List.mem_map_of_mem (List.mem_of_getElem? hreplayed)))
    obtain ⟨instruction, -, hexec⟩ := Replay.run_executes hreplayed
    exact ⟨hbefore, hP.kept.execute hbefore hexec⟩
  rcases hf with hf | hf
  · obtain ⟨s, hs, rfl⟩ := Option.map_eq_some_iff.mp hf
    exact (hstep hs).1
  · obtain ⟨s, hs, rfl⟩ := Option.map_eq_some_iff.mp hf
    exact (hstep hs).2

end Upholds

/-! ## Instructions -/

theorem isSome_step?_iff {frames : Frames} (h : problem.outcome.result = .ok frames) (i : Index) :
    (frames.step? i).isSome ↔ problem.graph.Reaches i := by
  obtain ⟨entry, q, hfinished, rfl, hreachable⟩ := problem.carries_reachable.finished h
  rw [Option.isSome_iff_exists]
  constructor
  · rintro ⟨s, hs⟩
    obtain ⟨id, node, e, hnode, hi, he, -⟩ := hfinished.step?_origin hs
    exact ⟨id, node.block, hreachable id e he, Graph.block?_eq_some_iff.mpr ⟨node, hnode, rfl⟩, hi⟩
  · rintro ⟨id, b, hid, hb, hi⟩
    obtain ⟨edges, e, hnode, he⟩ := hfinished.reached_block hid hb
    obtain ⟨s, -, hs⟩ := hfinished.step?_eq hnode he hi
    exact ⟨s, hs⟩

theorem size_frames {frames : Frames} (h : problem.outcome.result = .ok frames) :
    frames.size = problem.method.instructions.length := by
  obtain ⟨entry, q, hfinished, rfl⟩ := finished_of_outcome h
  exact hfinished.steady.frames_size

end Problem

/-- There is a place for every instruction, and in it there are frames, both of them, exactly
if the instruction lies in a block that control can reach from the first one. -/
theorem frames_are_recorded_exactly_where_control_reaches {settings : Settings} {method : Method}
    {graph : Graph} {frames : Frames}
    (h : (analyze settings method graph).result = .ok frames) :
    frames.size = method.instructions.length ∧
      ∀ i, ((frames.before? i).isSome ↔ (frames.after? i).isSome) ∧
        ((frames.before? i).isSome ↔ graph.Reaches i) := by
  have houtcome := analyze_eq_ok_iff.mp h
  refine ⟨Problem.size_frames houtcome, ?_⟩
  intro i
  unfold Frames.before? Frames.after?
  rw [Option.isSome_map, Option.isSome_map]
  exact ⟨Iff.rfl, Problem.isSome_step?_iff houtcome i⟩

/-! ## A method with dead code -/

/-- Its third instruction runs only if the first one fails. The fourth belongs to a block that
nothing leads to, and the fifth to no block. -/
def sheltered : Method where
  owner := .object
  name := ⟨"sheltered", rfl⟩
  type := ⟨[], none⟩
  flags := ⟨AccessFlag.static.mask⟩
  maxLocals := 0
  maxStack := 1
  instructions := [.nop, .returnVoid, .unary .raise, .nop, .nop]

def shelteredGraph : Graph where
  nodes :=
    #[⟨⟨0, 1⟩, [⟨1, .normal⟩, ⟨2, .exception none⟩]⟩,
      ⟨⟨1, 2⟩, []⟩,
      ⟨⟨2, 3⟩, []⟩,
      ⟨⟨3, 4⟩, [⟨1, .normal⟩]⟩]
  dangling := []

def shelteredFrames : Frames where
  steps :=
    let frame (stack : List Value) : Frame := { locals := [], stack, maxStack := 1 }
    #[some ⟨frame [], frame []⟩,
      some ⟨frame [], frame []⟩,
      some ⟨frame [.object .throwable], frame []⟩,
      none,
      none]

theorem analyze_sheltered :
    (analyze .default sheltered shelteredGraph).result = .ok shelteredFrames :=
  result_analyze_of_runWithin 10 (Frame.empty 0 1) (by cbv) (by decide +kernel)
    (by decide +kernel)

/-- The handler counts as reached, and the code that nothing leads to does not. -/
theorem frames_of_sheltered_are_recorded_where_control_reaches :
    (analyze .default sheltered shelteredGraph).result = .ok shelteredFrames ∧
      shelteredFrames.size = 5 ∧ shelteredGraph.Reaches 2 ∧ ¬ shelteredGraph.Reaches 3 := by
  obtain ⟨hsize, hrecorded⟩ := frames_are_recorded_exactly_where_control_reaches analyze_sheltered
  refine ⟨analyze_sheltered, hsize, (hrecorded 2).2.mp rfl, ?_⟩
  rw [← (hrecorded 3).2]
  decide +kernel

end SymbolicFrames
