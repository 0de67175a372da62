-- The order in which blocks are visited, which the order of the edges decides. It can show in
-- the frames: a block that is visited early, before its frame is what it comes to in the end,
-- may send on a literal that no later visit takes back. Main statement: two orders lead to the
-- same frames exactly if the early visits of each send on nothing that the frames of the other
-- do not absorb.
import SymbolicFrames.Proofs.FixedPoint

namespace SymbolicFrames

/-! ## Frames by their steps -/

theorem Frames.ext_step? {frames frames' : Frames} (hsize : frames.size = frames'.size)
    (h : ∀ i, frames.step? i = frames'.step? i) : frames = frames' := by
  obtain ⟨steps⟩ := frames
  obtain ⟨steps'⟩ := frames'
  congr 1
  apply Array.ext hsize
  intro i hi hi'
  have hstep := h i
  simp only [step?, Array.getElem?_eq_getElem hi, Array.getElem?_eq_getElem hi'] at hstep
  exact hstep

/-! ## Graphs that differ in the order of edges -/

/-- The same blocks with the same edges, which may have been added in another order. -/
structure Graph.Reordered (g g' : Graph) : Prop where
  block?_eq : ∀ id, g.block? id = g'.block? id
  perm : ∀ id, (g.successors id).Perm (g'.successors id)

theorem Graph.Reordered.symm {g g' : Graph} (h : g.Reordered g') : g'.Reordered g :=
  ⟨fun id => (h.block?_eq id).symm, fun id => (h.perm id).symm⟩

theorem Graph.Reordered.node {g g' : Graph} (h : g.Reordered g') {id : BlockId} {node : Node}
    (hnode : g.nodes[id]? = some node) :
    ∃ edges, g'.nodes[id]? = some ⟨node.block, edges⟩ ∧ node.edges.Perm edges := by
  have hblock := h.block?_eq id
  rw [block?_eq_some_iff.mpr ⟨node, hnode, rfl⟩] at hblock
  obtain ⟨node', hnode', heq⟩ := block?_eq_some_iff.mp hblock.symm
  have hperm := h.perm id
  rw [successors_of_node hnode, successors_of_node hnode'] at hperm
  exact ⟨node'.edges, heq ▸ hnode', hperm⟩

namespace Problem

/-- The same problem with the edges in another order. -/
structure Reordered (problem problem' : Problem) : Prop where
  settings_eq : problem.settings = problem'.settings
  method_eq : problem.method = problem'.method
  graph : problem.graph.Reordered problem'.graph

theorem Reordered.symm {problem problem' : Problem} (h : problem.Reordered problem') :
    problem'.Reordered problem :=
  ⟨h.settings_eq.symm, h.method_eq.symm, h.graph.symm⟩

variable {problem problem' : Problem}

theorem Reordered.replay_eq (h : problem.Reordered problem') (b : Block) (f : Frame) :
    problem.replay b f = problem'.replay b f := by
  unfold replay
  rw [h.method_eq]

/-- What a visit sends on does not depend on the order of the edges. -/
theorem Reordered.mem_sends_iff (h : problem.Reordered problem') {b : Block}
    {edges edges' : List Edge} (hperm : edges.Perm edges') {f : Frame} {d : Delivery} :
    d ∈ problem.sends ⟨b, edges⟩ f ↔ d ∈ problem'.sends ⟨b, edges'⟩ f := by
  unfold sends
  rw [Replay.mem_deliveries_iff, Replay.mem_deliveries_iff, h.replay_eq, h.settings_eq]
  simp only [hperm.mem_iff]

/-! ## Early visits -/

/-- Whatever a visit sent on that was made with another frame than the recorded one is
absorbed by the frames recorded where it goes. -/
def EarlyVisitsAbsorbed (problem : Problem) (frames : Frames)
    (visits : List (BlockId × Frame)) : Prop :=
  ∀ id f node, (id, f) ∈ visits → problem.graph.nodes[id]? = some node →
    frames.before? node.block.start ≠ some f →
    ∀ d ∈ problem.sends node f, ∃ b g, problem.graph.block? d.target = some b ∧
      frames.before? b.start = some g ∧ g.Absorbs d.frame

/-- All that any visit of a run sent on is taken in when the run ends. -/
theorem Run.takes_sent {p q : Progress} {entry : Frame} {visits : List (BlockId × Frame)}
    (hvalid : problem.graph.Valid problem.method.instructions.length)
    (hrun : problem.Run p visits q) (hp : problem.Steady entry p) {d : Delivery}
    (hd : p.worklist.Takes d ∨ ∃ id f node, (id, f) ∈ visits ∧
      problem.graph.nodes[id]? = some node ∧ d ∈ problem.sends node f) :
    q.worklist.Takes d := by
  induction hrun with
  | nil =>
    rcases hd with hd | ⟨id, f, node, hmem, -⟩
    · exact hd
    · exact absurd hmem List.not_mem_nil
  | @cons p next q id frame waiting visits hpop hvisit _ ih =>
    obtain ⟨node, hnode, -⟩ := visit_cases hvisit
    apply ih (steady_visit hvalid hp hpop hvisit)
    have htakes := fun h => takes_visit (d := d) hp.sound hpop hvisit hnode h
    rcases hd with hd | ⟨id', f', node', hmem, hnode', hd⟩
    · exact Or.inl (htakes (Or.inl hd))
    · rcases List.mem_cons.mp hmem with heq | hmem
      · simp only [Prod.mk.injEq] at heq
        obtain ⟨rfl, rfl⟩ := heq
        rw [hnode, Option.some.injEq] at hnode'
        exact Or.inl (htakes (Or.inr (hnode' ▸ hd)))
      · exact Or.inr ⟨id', f', node', hmem, hnode', hd⟩

/-! ## One order against another -/

section TwoOrders

variable {entry entry' : Frame} {q q' : Progress}

/-- What a visit in one order sends on is taken in by the frames of the other, if the frame of
the visit is and the condition holds. -/
theorem takes_sent_of_absorbed (hsame : problem.Reordered problem')
    (h : problem.Finished entry q) {id : BlockId} {f : Frame} {node' : Node}
    {visits : List (BlockId × Frame)} (habsorbed : problem.EarlyVisitsAbsorbed q.frames visits)
    (hvisit : (id, f) ∈ visits) (hnode' : problem'.graph.nodes[id]? = some node')
    (hf : q.worklist.Takes ⟨id, f⟩) :
    ∀ d ∈ problem'.sends node' f, q.worklist.Takes d := by
  intro d hd
  obtain ⟨edges, hnode, hperm⟩ := hsame.symm.graph.node hnode'
  rw [hsame.symm.mem_sends_iff hperm] at hd
  obtain ⟨g, hg, -⟩ := hf
  by_cases hearly : q.frames.before? node'.block.start = some f
  · have hbefore := h.before?_start hnode hg
    rw [hearly, Option.some.injEq] at hbefore
    exact h.takes_sent hnode (hbefore ▸ hg) hd
  · exact h.takes_iff.mpr (habsorbed id f _ hvisit hnode hearly d hd)

theorem Run.takes_of_absorbed (hsame : problem.Reordered problem')
    (h : problem.Finished entry q) {p' : Progress} {visits : List (BlockId × Frame)}
    (hvalid : problem'.graph.Valid problem'.method.instructions.length)
    (hrun : problem'.Run p' visits q') (hp' : problem'.Steady entry' p')
    (habsorbed : problem.EarlyVisitsAbsorbed q.frames visits)
    (htakes : ∀ {b f}, p'.worklist.frameAt? b = some f → q.worklist.Takes ⟨b, f⟩)
    {b : BlockId} {f : Frame} (hf : q'.worklist.frameAt? b = some f) :
    q.worklist.Takes ⟨b, f⟩ := by
  induction hrun with
  | nil => exact htakes hf
  | @cons p' next q' id frame waiting visits hpop hvisit _ ih =>
    obtain ⟨-, hframe, hentries, -⟩ := Worklist.pop?_cases hp'.sound hpop
    obtain ⟨node', hnode', -, -, hdeliver, -⟩ := visit_cases hvisit
    have hsent := takes_sent_of_absorbed hsame h habsorbed List.mem_cons_self hnode'
      (htakes hframe)
    apply ih (steady_visit hvalid hp' hpop hvisit) _ _ hf
    · intro id f node hmem
      exact habsorbed id f node (List.mem_cons_of_mem _ hmem)
    · intro c k hk
      apply Worklist.forall_deliver (P := fun c k => q.worklist.Takes ⟨c, k⟩) _ hsent _ hdeliver hk
      · rintro c f g merged changed ⟨e, he, hef⟩ ⟨e', he', heg⟩ hmerge
        rw [he, Option.some.injEq] at he'
        subst he'
        exact ⟨e, he, hef.merge heg hmerge⟩
      · intro c k hk
        rw [Worklist.frameAt?_congr hentries] at hk
        exact htakes hk

theorem takes_of_absorbed (hsame : problem.Reordered problem') (h : problem.Finished entry q)
    {w' : Worklist} {visits : List (BlockId × Frame)} (hbegins : problem'.Begins entry' w')
    (hrun : problem'.Run (problem'.start w') visits q')
    (habsorbed : problem.EarlyVisitsAbsorbed q.frames visits) {b : BlockId} {f : Frame}
    (hf : q'.worklist.frameAt? b = some f) : q.worklist.Takes ⟨b, f⟩ := by
  have hentry := h.entry_eq
  rw [hsame.method_eq, hbegins.entry_eq, Except.ok.injEq] at hentry
  apply hrun.takes_of_absorbed hsame h hbegins.valid (steady_start hbegins) habsorbed _ hf
  intro c k hk
  obtain ⟨rfl, rfl⟩ := hbegins.frameAt? hk
  exact hentry ▸ h.steady.entered

/-- Where the same blocks have been reached with the same frames, the same steps have been
recorded. -/
theorem step?_of_frameAt?_eq (hsame : problem.Reordered problem')
    (h : problem.Finished entry q) (h' : problem'.Finished entry' q')
    (heq : ∀ b, q.worklist.frameAt? b = q'.worklist.frameAt? b) {i : Index} {s : Step}
    (hs : q.frames.step? i = some s) : q'.frames.step? i = some s := by
  obtain ⟨id, node, f, hnode, hi, hf⟩ := h.steady.in_blocks hs
  obtain ⟨edges, hnode', -⟩ := hsame.graph.node hnode
  obtain ⟨t, ht, hrec⟩ := h.step?_eq hnode hf hi
  obtain ⟨t', ht', hrec'⟩ := h'.step?_eq hnode' ((heq id).symm.trans hf) hi
  rw [hsame.replay_eq, ht', Option.some.injEq] at ht
  rw [hs, Option.some.injEq] at hrec
  rw [hrec', ht, hrec]

theorem frames_eq_of_frameAt?_eq (hsame : problem.Reordered problem')
    (h : problem.Finished entry q) (h' : problem'.Finished entry' q')
    (heq : ∀ b, q.worklist.frameAt? b = q'.worklist.frameAt? b) : q.frames = q'.frames := by
  apply Frames.ext_step?
  · rw [h.steady.frames_size, h'.steady.frames_size, hsame.method_eq]
  · intro i
    apply Option.ext
    intro s
    constructor
    · exact step?_of_frameAt?_eq hsame h h' heq
    · exact step?_of_frameAt?_eq hsame.symm h' h fun b => (heq b).symm

/-- Worklists that have taken in each other's frames have the same frames. -/
theorem frameAt?_eq_of_takes (hsame : problem.Reordered problem')
    (h : problem.Finished entry q) (h' : problem'.Finished entry' q')
    (htakes : ∀ {b f}, q'.worklist.frameAt? b = some f → q.worklist.Takes ⟨b, f⟩)
    (htakes' : ∀ {b f}, q.worklist.frameAt? b = some f → q'.worklist.Takes ⟨b, f⟩) (b : BlockId) :
    q.worklist.frameAt? b = q'.worklist.frameAt? b := by
  rcases hf : q.worklist.frameAt? b with _ | f
  · rcases hf' : q'.worklist.frameAt? b with _ | f'
    · rfl
    · obtain ⟨f, hf'', -⟩ := htakes hf'
      rw [hf] at hf''
      contradiction
  · obtain ⟨f', hf', habsorbs'⟩ := htakes' hf
    obtain ⟨f'', hf'', habsorbs⟩ := htakes hf'
    rw [hf, Option.some.injEq] at hf''
    subst hf''
    rw [hf', habsorbs.antisymm habsorbs']
    rw [(h.steady.fits hf).maxStack_eq, (h'.steady.fits hf').maxStack_eq, hsame.method_eq]

/-- The frames that come of an order absorb all that its own visits have sent on. -/
theorem earlyVisitsAbsorbed_self (hsame : problem.Reordered problem')
    (h' : problem'.Finished entry' q') {w' : Worklist} {visits : List (BlockId × Frame)}
    (hbegins : problem'.Begins entry' w') (hrun : problem'.Run (problem'.start w') visits q') :
    problem.EarlyVisitsAbsorbed q'.frames visits := by
  intro id f node hmem hnode _ d hd
  obtain ⟨edges, hnode', hperm⟩ := hsame.graph.node hnode
  rw [hsame.mem_sends_iff hperm] at hd
  have htakes := hrun.takes_sent hbegins.valid (steady_start hbegins)
    (Or.inr ⟨id, f, _, hmem, hnode', hd⟩)
  obtain ⟨b, g, hb, hg, habsorbs⟩ := h'.takes_iff.mp htakes
  exact ⟨b, g, (hsame.graph.block?_eq _).trans hb, hg, habsorbs⟩

end TwoOrders

end Problem

/-- Two orders of the edges lead to the same frames exactly if, either way, the early visits
in one order sent on nothing but what the frames of the other absorb. -/
theorem orders_agree_iff_early_visits_are_absorbed {settings : Settings} {method : Method}
    {graph graph' : Graph} {frames frames' : Frames} (hsame : graph.Reordered graph')
    (h : (analyze settings method graph).result = .ok frames)
    (h' : (analyze settings method graph').result = .ok frames') :
    frames = frames' ↔
      Problem.EarlyVisitsAbsorbed ⟨settings, method, graph⟩ frames
          (visitsOf (analyze settings method graph').log) ∧
        Problem.EarlyVisitsAbsorbed ⟨settings, method, graph'⟩ frames'
          (visitsOf (analyze settings method graph).log) := by
  have hproblems : Problem.Reordered ⟨settings, method, graph⟩ ⟨settings, method, graph'⟩ :=
    ⟨rfl, rfl, hsame⟩
  obtain ⟨entry, w, q, hbegins, hrun, hend, rfl⟩ := Problem.outcome_eq_ok (analyze_eq_ok_iff.mp h)
  obtain ⟨entry', w', q', hbegins', hrun', hend', rfl⟩ :=
    Problem.outcome_eq_ok (analyze_eq_ok_iff.mp h')
  have hfinished := Problem.finished_of_run hbegins hrun hend
  have hfinished' := Problem.finished_of_run hbegins' hrun' hend'
  rw [visitsOf_analyze, visitsOf_analyze]
  constructor
  · intro heq
    have habsorbed := Problem.earlyVisitsAbsorbed_self hproblems hfinished' hbegins' hrun'
    have habsorbed' := Problem.earlyVisitsAbsorbed_self hproblems.symm hfinished hbegins hrun
    rw [heq] at habsorbed' ⊢
    exact ⟨habsorbed, habsorbed'⟩
  · rintro ⟨habsorbed, habsorbed'⟩
    apply Problem.frames_eq_of_frameAt?_eq hproblems hfinished hfinished'
    apply Problem.frameAt?_eq_of_takes hproblems hfinished hfinished'
    · exact Problem.takes_of_absorbed hproblems hfinished hbegins' hrun' habsorbed
    · exact Problem.takes_of_absorbed hproblems.symm hfinished' hbegins hrun habsorbed'

/-! ## A detour -/

/-- Counts up once if control goes straight, and twice on the detour. -/
def detour : Method where
  owner := .object
  name := ⟨"detour", rfl⟩
  type := ⟨[], none⟩
  flags := ⟨AccessFlag.static.mask⟩
  maxLocals := 1
  maxStack := 1
  instructions :=
    [.push (.byte 0), .store .int 0,
      .increment 0 1,
      .increment 0 1,
      .returnVoid]

/-- The detour is the block numbered one. Whether it comes before the straight way is left
open. -/
def detourGraph (first second : BlockId) : Graph where
  nodes :=
    #[⟨⟨0, 2⟩, [⟨first, .normal⟩, ⟨second, .normal⟩]⟩,
      ⟨⟨2, 3⟩, [⟨2, .normal⟩]⟩,
      ⟨⟨3, 4⟩, [⟨3, .normal⟩]⟩,
      ⟨⟨4, 5⟩, []⟩]
  dangling := []

theorem reordered_detourGraph (first second : BlockId) :
    (detourGraph first second).Reordered (detourGraph second first) := by
  constructor
  · intro id
    match id with
    | 0 | 1 | 2 | 3 => rfl
    | _ + 4 => rfl
  · intro id
    match id with
    | 0 => exact List.Perm.swap _ _ _
    | 1 | 2 | 3 => exact List.Perm.refl _
    | _ + 4 => exact List.Perm.refl _

def detourFrames (last : Value) : Frames where
  steps :=
    let frame (v : Value) (stack : List Value) : Frame := ⟨[v], stack, 1⟩
    #[some ⟨frame .uninitialized [], frame .uninitialized [.int (some 0)]⟩,
      some ⟨frame .uninitialized [.int (some 0)], frame (.int (some 0)) []⟩,
      some ⟨frame (.int (some 0)) [], frame (.int (some 1)) []⟩,
      some ⟨frame .top [], frame (.int none) []⟩,
      some ⟨frame last [], frame last []⟩]

theorem analyze_detour :
    (analyze .unbounded detour (detourGraph 1 2)).result = .ok (detourFrames (.int none)) :=
  result_analyze_of_runWithin 10 (Frame.empty 1 1) (by cbv) (by decide +kernel)
    (by decide +kernel)

theorem analyze_straight :
    (analyze .unbounded detour (detourGraph 2 1)).result = .ok (detourFrames .top) :=
  result_analyze_of_runWithin 10 (Frame.empty 1 1) (by cbv) (by decide +kernel)
    (by decide +kernel)

/-- Straight first, the last block is reached with a literal that the join on its way there
would have denied it. -/
theorem order_of_edges_shows_in_the_frames :
    (detourGraph 1 2).Reordered (detourGraph 2 1) ∧
      (analyze .unbounded detour (detourGraph 1 2)).result = .ok (detourFrames (.int none)) ∧
      (analyze .unbounded detour (detourGraph 2 1)).result = .ok (detourFrames .top) ∧
      detourFrames (.int none) ≠ detourFrames .top :=
  ⟨reordered_detourGraph 1 2, analyze_detour, analyze_straight, by decide⟩

theorem detour_has_an_early_visit_that_is_not_absorbed :
    (detourGraph 1 2).Reordered (detourGraph 2 1) ∧
      (analyze .unbounded detour (detourGraph 1 2)).result = .ok (detourFrames (.int none)) ∧
      (analyze .unbounded detour (detourGraph 2 1)).result = .ok (detourFrames .top) ∧
      ¬ (Problem.EarlyVisitsAbsorbed ⟨.unbounded, detour, detourGraph 1 2⟩
            (detourFrames (.int none))
            (visitsOf (analyze .unbounded detour (detourGraph 2 1)).log) ∧
          Problem.EarlyVisitsAbsorbed ⟨.unbounded, detour, detourGraph 2 1⟩ (detourFrames .top)
            (visitsOf (analyze .unbounded detour (detourGraph 1 2)).log)) := by
  refine ⟨reordered_detourGraph 1 2, analyze_detour, analyze_straight, ?_⟩
  rw [← orders_agree_iff_early_visits_are_absorbed (reordered_detourGraph 1 2) analyze_detour
    analyze_straight]
  decide

end SymbolicFrames
