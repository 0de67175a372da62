-- Graphs in which control can come to every block in one way only. There an analysis has
-- nothing to join: it executes each way once, from the frame on entry to the method. Main
-- statement: it succeeds exactly if no instruction on any way fails, it records exactly the
-- frames of these executions, and it visits every block on a way once.
import SymbolicFrames.Proofs.Reachability
import SymbolicFrames.Proofs.Trails

namespace SymbolicFrames

/-! ## Delivering what is there already -/

namespace Worklist

/-- A frame that is the only one for its block can always be delivered. It is the first, or
nothing changes. -/
theorem propagate_of_agrees {w : Worklist} {d : Delivery} (hlt : d.target < w.entries.size)
    (h : ∀ f, w.frameAt? d.target = some f → f = d.frame) :
    (w.frameAt? d.target = none ∧ w.propagate d = .ok (w.setEntry d.target d.frame, true)) ∨
      (w.frameAt? d.target = some d.frame ∧ w.propagate d = .ok (w, false)) := by
  rcases hentry : w.entries[d.target] with _ | current
  · have hblank : w.entries[d.target]? = some none := by
      rw [Array.getElem?_eq_getElem hlt, hentry]
    exact Or.inl ⟨frameAt?_of_blank hblank, by simp [propagate, hblank]⟩
  · have hcurrent : w.entries[d.target]? = some (some current) := by
      rw [Array.getElem?_eq_getElem hlt, hentry]
    obtain rfl := h current (frameAt?_eq_some_iff.mpr hcurrent)
    have habsorbs : d.frame.merge d.frame = .ok (d.frame, false) := d.frame.absorbs_self
    exact Or.inr ⟨frameAt?_eq_some_iff.mpr hcurrent, by simp [propagate, hcurrent, habsorbs]⟩

/-- The blocks that have been reached are those visited and those that wait, each of them
once. -/
structure Tallies (w : Worklist) (visited : List BlockId) : Prop where
  nodup : (visited ++ w.queue).Nodup
  mem_iff : ∀ b, b ∈ visited ++ w.queue ↔ ∃ f, w.frameAt? b = some f

theorem tallies_ofSize (n : Nat) : (ofSize n).Tallies [] := by
  refine ⟨.nil, fun b => ?_⟩
  rw [frameAt?_ofSize]
  simp [ofSize]

theorem Tallies.setEntry {w : Worklist} {visited : List BlockId} (h : w.Tallies visited)
    (hsound : w.Sound) {b : BlockId} (hlt : b < w.entries.size) (hblank : w.frameAt? b = none)
    (f : Frame) : (w.setEntry b f).Tallies visited := by
  have hnew : b ∉ visited ++ w.queue := by
    rw [h.mem_iff, hblank]
    simp
  have hqueue : (w.setEntry b f).queue = w.queue ++ [b] := by
    have hqueued : ¬ w.queued[b]? = some true := by
      rw [hsound.queued_iff]
      exact fun hmem => hnew (List.mem_append_right _ hmem)
    simp [Worklist.setEntry, enqueue, hqueued]
  constructor
  · rw [hqueue, ← List.append_assoc]
    exact List.nodup_append_comm.mp (List.nodup_cons.mpr ⟨hnew, h.nodup⟩)
  · intro c
    rw [hqueue, ← List.append_assoc, List.mem_append, h.mem_iff, List.mem_singleton,
      frameAt?_setEntry hlt]
    by_cases hc : c = b
    · simp [hc]
    · simp [hc]

/-- Where there is only one frame for every block, all deliveries succeed, and a block comes to
wait only when it is reached. -/
theorem deliver_of_agrees {P : BlockId → Frame → Prop}
    (hunique : ∀ {b f g}, P b f → P b g → f = g) {w : Worklist} {visited : List BlockId}
    {ds : List Delivery} (hsound : w.Sound) (hw : ∀ {b f}, w.frameAt? b = some f → P b f)
    (hds : ∀ d ∈ ds, d.target < w.entries.size ∧ P d.target d.frame) (h : w.Tallies visited) :
    ∃ next, (w.deliver ds).result = .ok next ∧ next.Tallies visited := by
  induction ds generalizing w with
  | nil => exact ⟨w, rfl, h⟩
  | cons d rest ih =>
    obtain ⟨hlt, hd⟩ := hds d List.mem_cons_self
    have hrest : ∀ d' ∈ rest, d'.target < w.entries.size ∧ P d'.target d'.frame :=
      fun d' hd' => hds d' (List.mem_cons_of_mem d hd')
    rcases propagate_of_agrees hlt (fun f hf => hunique (hw hf) hd) with
      ⟨hblank, hprop⟩ | ⟨-, hprop⟩
    · have hset : ∀ {b f}, (w.setEntry d.target d.frame).frameAt? b = some f → P b f := by
        intro b f hf
        rw [frameAt?_setEntry hlt] at hf
        split at hf
        · rename_i hb
          cases hf
          exact hb ▸ hd
        · exact hw hf
      rw [← size_setEntry w d.target d.frame] at hrest
      obtain ⟨next, hnext, htally⟩ :=
        ih (sound_setEntry hsound hlt d.frame) hset hrest (h.setEntry hsound hlt hblank d.frame)
      exact ⟨next, deliver_cons_eq_ok.mpr ⟨_, _, hprop, hnext⟩, htally⟩
    · obtain ⟨next, hnext, htally⟩ := ih hsound hw hrest h
      exact ⟨next, deliver_cons_eq_ok.mpr ⟨_, _, hprop, hnext⟩, htally⟩

end Worklist

/-! ## What arrives at a block -/

namespace Problem

variable {problem : Problem} {entry : Frame}

/-- The graph of the problem is a tree that fits the method, and the method can be entered. -/
structure OnTree (problem : Problem) (entry : Frame) : Prop where
  tree : problem.graph.TreeShaped
  no_fault : problem.graph.fault? problem.method.instructions.length = none
  entry_eq : problem.method.entryFrame = .ok entry

theorem OnTree.valid (h : problem.OnTree entry) :
    problem.graph.Valid problem.method.instructions.length :=
  Graph.valid_of_fault?_eq_none h.no_fault

/-- The frame with which control comes to the block along some trail. -/
def Arrives (problem : Problem) (entry : Frame) (id : BlockId) (f : Frame) : Prop :=
  ∃ before, problem.graph.Trail before id ∧
    (problem.graph.walk problem.method.instructions entry before).fault = none ∧
    (problem.graph.walk problem.method.instructions entry before).exit = f

theorem OnTree.arrives_unique (h : problem.OnTree entry) {id : BlockId} {f g : Frame}
    (hf : problem.Arrives entry id f) (hg : problem.Arrives entry id g) : f = g := by
  obtain ⟨before, htrail, -, rfl⟩ := hf
  obtain ⟨before', htrail', -, rfl⟩ := hg
  rw [h.tree.trail_unique htrail htrail']

/-- Along a trail only normal edges are followed, and nothing is joined. -/
theorem OnTree.carries (h : problem.OnTree entry) :
    problem.Carries (problem.Arrives entry) where
  entered := by
    intro f hf
    rw [h.entry_eq] at hf
    cases hf
    exact ⟨[], .entry, rfl, rfl⟩
  sent := by
    rintro id node f hnode ⟨before, htrail, hfault, rfl⟩ d hd
    have hb : problem.graph.block? id = some node.block :=
      Graph.block?_eq_some_iff.mpr ⟨node, hnode, rfl⟩
    have hnormal : ∀ edge ∈ node.edges, edge ∈ problem.graph.successors id := by
      rw [Graph.successors_of_node hnode]
      exact fun _ hedge => hedge
    rcases Replay.mem_deliveries_iff.mp hd with ⟨edge, hedge, caught, hkind, -⟩ |
      ⟨hreplay, edge, hedge, -, rfl⟩
    · rw [h.tree.normal edge (Graph.mem_edges_of_mem_successors (hnormal edge hedge))] at hkind
      cases hkind
    · refine ⟨before ++ [id], htrail.along (hnormal edge hedge), ?_, ?_⟩
      · exact (Graph.fault_walk_concat hb).mpr ⟨hfault, hreplay⟩
      · exact Graph.exit_walk_concat hb hfault
  joined := by
    intro id f g merged changed hf hg hmerge
    obtain rfl := h.arrives_unique hf hg
    have hself : f.merge f = .ok (f, false) := f.absorbs_self
    rw [hself] at hmerge
    cases hmerge
    exact hf

/-! ## A run through a tree -/

/-- How far a run has got in which every block has one frame only. -/
structure Orderly (problem : Problem) (entry : Frame) (visited : List BlockId) (p : Progress) :
    Prop where
  steady : problem.Steady entry p
  arrives : ∀ {b f}, p.worklist.frameAt? b = some f → problem.Arrives entry b f
  tallies : p.worklist.Tallies visited

theorem orderly_start {w : Worklist} (h : problem.Begins entry w) :
    problem.Orderly entry [] (problem.start w) := by
  have hreached : ∀ {b f}, w.frameAt? b = some f → b = Graph.entry ∧ f = entry := h.frameAt?
  refine ⟨steady_start h, ?_, ?_⟩
  · intro b f hf
    obtain ⟨rfl, rfl⟩ := hreached hf
    exact ⟨[], .entry, rfl, rfl⟩
  · have hlt := h.entry_lt
    obtain ⟨-, -, rfl⟩ := h
    exact (Worklist.tallies_ofSize _).setEntry (Worklist.sound_ofSize _) hlt
      (Worklist.frameAt?_ofSize _ _) entry

section Visit

variable {p next : Progress} {id : BlockId} {frame : Frame} {waiting : Worklist} {node : Node}
  {visited : List BlockId}

/-- Whatever leaves a block can be delivered. -/
theorem Orderly.delivers (h : problem.OnTree entry) (hp : problem.Orderly entry visited p)
    (hpop : p.worklist.pop? = some (id, frame, waiting))
    (hnode : problem.graph.nodes[id]? = some node) :
    ∃ w, (waiting.deliver (problem.sends node frame)).result = .ok w ∧
      w.Tallies (visited ++ [id]) := by
  obtain ⟨hqueue, hframe, hentries, hsound⟩ := Worklist.pop?_cases hp.steady.sound hpop
  apply Worklist.deliver_of_agrees (P := problem.Arrives entry) h.arrives_unique hsound
  · intro b f hf
    rw [Worklist.frameAt?_congr hentries] at hf
    exact hp.arrives hf
  · intro d hd
    refine ⟨?_, h.carries.sent hnode (hp.arrives hframe) d hd⟩
    obtain ⟨edge, hedge, htarget⟩ := target_of_mem_sends hd
    rw [htarget, hentries, hp.steady.size_eq]
    rw [← Graph.successors_of_node hnode] at hedge
    exact h.valid.target_lt hedge
  · have htallies := hp.tallies
    constructor
    · rw [List.append_assoc, List.singleton_append, ← hqueue]
      exact htallies.nodup
    · intro b
      rw [List.append_assoc, List.singleton_append, ← hqueue, Worklist.frameAt?_congr hentries]
      exact htallies.mem_iff b

theorem Orderly.visit (h : problem.OnTree entry) (hp : problem.Orderly entry visited p)
    (hpop : p.worklist.pop? = some (id, frame, waiting))
    (hvisit : (problem.visit p id frame waiting).result = .ok next) :
    problem.Orderly entry (visited ++ [id]) next := by
  obtain ⟨node, hnode, -, -, hdeliver, -⟩ := visit_cases hvisit
  refine ⟨steady_visit h.valid hp.steady hpop hvisit, ?_, ?_⟩
  · intro b f hf
    exact h.carries.visit hp.steady.sound hp.arrives hpop hvisit hf
  · obtain ⟨w, hw, htallies⟩ := hp.delivers h hpop hnode
    rw [hdeliver] at hw
    cases hw
    exact htallies

/-- A visit can only fail because an instruction does. -/
theorem Orderly.fault_of_visit (h : problem.OnTree entry)
    (hlimit : problem.settings.visitLimit = none) (hp : problem.Orderly entry visited p)
    (hpop : p.worklist.pop? = some (id, frame, waiting)) {failure : Failure}
    (hvisit : (problem.visit p id frame waiting).result = .error failure) :
    ∃ before, problem.graph.Trail before id ∧
      (problem.graph.walk problem.method.instructions entry (before ++ [id])).fault ≠ none := by
  obtain ⟨-, hframe, -⟩ := Worklist.pop?_cases hp.steady.sound hpop
  rcases visit_fails hvisit with ⟨limit, hreached, -⟩ | ⟨hnone, -⟩ |
    ⟨node, hnode, hdeliver | ⟨i, fault, hfault, -⟩⟩
  · simp [Settings.limitReached?, hlimit] at hreached
  · obtain ⟨node, hnode⟩ := hp.steady.exists_node hframe
    rw [hnode] at hnone
    contradiction
  · obtain ⟨w, hw, -⟩ := hp.delivers h hpop hnode
    rw [hw] at hdeliver
    contradiction
  · obtain ⟨before, htrail, -, rfl⟩ := hp.arrives hframe
    have hb : problem.graph.block? id = some node.block :=
      Graph.block?_eq_some_iff.mpr ⟨node, hnode, rfl⟩
    refine ⟨before, htrail, ?_⟩
    intro hwalk
    have hno := ((Graph.fault_walk_concat hb).mp hwalk).2
    unfold replay at hfault
    rw [hfault] at hno
    contradiction

end Visit

theorem Orderly.run (h : problem.OnTree entry) {p q : Progress} {visited : List BlockId}
    {visits : List (BlockId × Frame)} (hrun : problem.Run p visits q)
    (hp : problem.Orderly entry visited p) :
    problem.Orderly entry (visited ++ visits.map Prod.fst) q := by
  induction hrun generalizing visited with
  | nil => simpa using hp
  | cons hpop hvisit _ ih =>
    have hrest := ih (hp.visit h hpop hvisit)
    rw [List.append_assoc] at hrest
    exact hrest

/-! ## The end of a run through a tree -/

section End

variable {q : Progress} {visited : List BlockId}

theorem Orderly.finished (h : problem.OnTree entry) (hq : problem.Orderly entry visited q)
    (hend : q.worklist.queue = []) : problem.Finished entry q :=
  ⟨h.valid, h.entry_eq, hq.steady, hend⟩

/-- At the end of every trail there is the frame that was carried along it. -/
theorem Orderly.arrived (h : problem.OnTree entry) (hq : problem.Orderly entry visited q)
    (hend : q.worklist.queue = []) {before : List BlockId} {id : BlockId}
    (htrail : problem.graph.Trail before id) :
    (problem.graph.walk problem.method.instructions entry before).fault = none ∧
      q.worklist.frameAt? id
        = some (problem.graph.walk problem.method.instructions entry before).exit := by
  obtain ⟨-, f, -, hf⟩ := (hq.finished h hend).reached htrail.reachable
  obtain ⟨before', htrail', hfault, rfl⟩ := hq.arrives hf
  obtain rfl := h.tree.trail_unique htrail htrail'
  exact ⟨hfault, hf⟩

theorem Orderly.fault_walk (h : problem.OnTree entry) (hq : problem.Orderly entry visited q)
    (hend : q.worklist.queue = []) {before : List BlockId} {id : BlockId}
    (htrail : problem.graph.Trail before id) :
    (problem.graph.walk problem.method.instructions entry (before ++ [id])).fault = none := by
  obtain ⟨hfault, hf⟩ := hq.arrived h hend htrail
  obtain ⟨node, -, hnode, -⟩ := (hq.finished h hend).reached htrail.reachable
  have hb : problem.graph.block? id = some node.block :=
    Graph.block?_eq_some_iff.mpr ⟨node, hnode, rfl⟩
  exact (Graph.fault_walk_concat hb).mpr
    ⟨hfault, ((hq.finished h hend).settled hnode hf).no_fault⟩

/-- What is recorded for an instruction is what happens to it on the way through its block. -/
theorem Orderly.step?_eq_some_iff (h : problem.OnTree entry)
    (hq : problem.Orderly entry visited q) (hend : q.worklist.queue = []) {i : Index}
    {s : Step} :
    q.frames.step? i = some s ↔ ∃ before id b, problem.graph.Trail before id ∧
      problem.graph.block? id = some b ∧ b.Holds i ∧
      (problem.graph.walk problem.method.instructions entry (before ++ [id])).steps[
        (problem.graph.code problem.method.instructions before).length + (i - b.start)]?
          = some s := by
  have hfinished := hq.finished h hend
  constructor
  · intro hs
    obtain ⟨id, node, e, hnode, hi, he, hreplayed⟩ := hfinished.step?_origin hs
    have hb : problem.graph.block? id = some node.block :=
      Graph.block?_eq_some_iff.mpr ⟨node, hnode, rfl⟩
    obtain ⟨before, htrail, hfault, rfl⟩ := hq.arrives he
    exact ⟨before, id, node.block, htrail, hb, hi,
      (Graph.steps_walk_concat hb hfault _).trans hreplayed⟩
  · rintro ⟨before, id, b, htrail, hb, hi, hs⟩
    obtain ⟨hfault, hf⟩ := hq.arrived h hend htrail
    obtain ⟨node, hnode, rfl⟩ := Graph.block?_eq_some_iff.mp hb
    obtain ⟨s', hs', hrec⟩ := hfinished.step?_eq hnode hf hi
    unfold replay at hs'
    rw [Graph.steps_walk_concat hb hfault, hs'] at hs
    exact hs ▸ hrec

/-- The blocks that were visited are those that control can reach. -/
theorem Orderly.mem_visited_iff (h : problem.OnTree entry) (hq : problem.Orderly entry visited q)
    (hend : q.worklist.queue = []) {id : BlockId} :
    id ∈ visited ↔ problem.graph.Reachable id := by
  have hmem := hq.tallies.mem_iff id
  rw [hend, List.append_nil] at hmem
  rw [hmem]
  constructor
  · rintro ⟨f, hf⟩
    obtain ⟨before, htrail, -⟩ := hq.arrives hf
    exact htrail.reachable
  · intro hid
    obtain ⟨-, f, -, hf⟩ := (hq.finished h hend).reached hid
    exact ⟨f, hf⟩

end End

theorem OnTree.outcome_eq_ok (h : problem.OnTree entry) {frames : Frames}
    (houtcome : problem.outcome.result = .ok frames) :
    ∃ q, problem.Orderly entry ((visitsOf problem.outcome.log).map Prod.fst) q ∧
      q.worklist.queue = [] ∧ q.frames = frames := by
  obtain ⟨entry', w, q, hbegins, hrun, hend, hframes⟩ := Problem.outcome_eq_ok houtcome
  have heq := hbegins.entry_eq
  rw [h.entry_eq, Except.ok.injEq] at heq
  subst heq
  have hq := Orderly.run h hrun (orderly_start hbegins)
  exact ⟨q, hq, (Worklist.pop?_eq_none_iff hq.steady.sound).mp hend, hframes⟩

/-- An analysis without a limit succeeds if no instruction fails on any trail. -/
theorem OnTree.exists_outcome_eq_ok (h : problem.OnTree entry)
    (hlimit : problem.settings.visitLimit = none)
    (hwalks : ∀ before id, problem.graph.Trail before id →
      (problem.graph.walk problem.method.instructions entry (before ++ [id])).fault = none) :
    ∃ frames, problem.outcome.result = .ok frames := by
  obtain ⟨w, hbegins, hresult, -⟩ := outcome_of_begins h.no_fault h.entry_eq
  obtain ⟨visits, q, hrun, hend⟩ := problem.run_cases (problem.start w)
  have hq := Orderly.run h hrun (orderly_start hbegins)
  rcases hend with ⟨-, hok, -⟩ | ⟨id, frame, waiting, failure, hpop, hfail, -⟩
  · exact ⟨q.frames, hresult.trans hok⟩
  · obtain ⟨before, htrail, hfault⟩ := hq.fault_of_visit h hlimit hpop hfail
    exact absurd (hwalks before id htrail) hfault

end Problem

/-- In a tree every block that control can reach has one trail. An analysis succeeds exactly if
no instruction fails on any of them. It records for every instruction what happens to it on the
trail through its block, and it visits the blocks that control can reach once each. -/
theorem trees_are_analyzed_exactly {method : Method} {graph : Graph} {entry : Frame}
    (hgraph : graph.fault? method.instructions.length = none) (htree : graph.TreeShaped)
    (hentry : method.entryFrame = .ok entry) :
    (∀ id, graph.Reachable id → ∃! before, graph.Trail before id) ∧
    ((∃ frames, (analyze .unbounded method graph).result = .ok frames) ↔
      ∀ before id, graph.Trail before id →
        (graph.walk method.instructions entry (before ++ [id])).fault = none) ∧
    ∀ frames, (analyze .unbounded method graph).result = .ok frames →
      (∀ i s, frames.step? i = some s ↔ ∃ before id b, graph.Trail before id ∧
        graph.block? id = some b ∧ b.Holds i ∧
        (graph.walk method.instructions entry (before ++ [id])).steps[
          (graph.code method.instructions before).length + (i - b.start)]? = some s) ∧
      ((visitsOf (analyze .unbounded method graph).log).map Prod.fst).Nodup ∧
      ∀ id, id ∈ (visitsOf (analyze .unbounded method graph).log).map Prod.fst ↔
        graph.Reachable id := by
  have h : Problem.OnTree ⟨.unbounded, method, graph⟩ entry := ⟨htree, hgraph, hentry⟩
  refine ⟨?_, ⟨?_, ?_⟩, ?_⟩
  · intro id hid
    obtain ⟨before, htrail⟩ := hid.exists_trail
    exact ⟨before, htrail, fun _ htrail' => htree.trail_unique htrail' htrail⟩
  · rintro ⟨frames, hframes⟩ before id htrail
    obtain ⟨q, hq, hend, -⟩ := h.outcome_eq_ok (analyze_eq_ok_iff.mp hframes)
    exact hq.fault_walk h hend htrail
  · intro hwalks
    obtain ⟨frames, hframes⟩ := h.exists_outcome_eq_ok rfl hwalks
    exact ⟨frames, analyze_eq_ok_iff.mpr hframes⟩
  · intro frames hframes
    obtain ⟨q, hq, hend, rfl⟩ := h.outcome_eq_ok (analyze_eq_ok_iff.mp hframes)
    refine ⟨fun i s => hq.step?_eq_some_iff h hend, ?_, fun id => hq.mem_visited_iff h hend⟩
    have hnodup := hq.tallies.nodup
    rw [hend, List.append_nil] at hnodup
    exact hnodup

/-! ## A fork -/

/-- Tells whether its argument is zero, in a local of its own. Its last instruction leads to
itself, and nothing else leads there. -/
def fork : Method where
  owner := .object
  name := ⟨"fork", rfl⟩
  type := ⟨[.base .int], none⟩
  flags := ⟨AccessFlag.static.mask⟩
  maxLocals := 2
  maxStack := 1
  instructions :=
    [.load .int 0, .unary (.ifZero .eq 5),
      .push (.byte 1), .store .int 1, .returnVoid,
      .push (.byte 2), .store .int 1,
      .returnVoid,
      .goto 8]

def forkGraph : Graph where
  nodes :=
    #[⟨⟨0, 2⟩, [⟨1, .normal⟩, ⟨2, .normal⟩]⟩,
      ⟨⟨2, 5⟩, []⟩,
      ⟨⟨5, 7⟩, [⟨3, .normal⟩]⟩,
      ⟨⟨7, 8⟩, []⟩,
      ⟨⟨8, 9⟩, [⟨4, .normal⟩]⟩]
  dangling := []

/-- The argument in the first local, and what it was found to be in the second. -/
def forkFrame (found : Value) (stack : List Value) : Frame :=
  { locals := [.int none, found], stack, maxStack := 1 }

def forkFrames : Frames where
  steps :=
    let unknown := forkFrame .uninitialized
    let one := Value.int (some 1)
    let two := Value.int (some 2)
    #[some ⟨unknown [], unknown [.int none]⟩,
      some ⟨unknown [.int none], unknown []⟩,
      some ⟨unknown [], unknown [one]⟩,
      some ⟨unknown [one], forkFrame one []⟩,
      some ⟨forkFrame one [], forkFrame one []⟩,
      some ⟨unknown [], unknown [two]⟩,
      some ⟨unknown [two], forkFrame two []⟩,
      some ⟨forkFrame two [], forkFrame two []⟩,
      none]

theorem analyze_fork : (analyze .unbounded fork forkGraph).result = .ok forkFrames :=
  result_analyze_of_runWithin 10 (forkFrame .uninitialized []) (by cbv) (by decide +kernel)
    (by decide +kernel)

/-- Either way keeps its literal, and no block is visited twice. -/
theorem fork_is_analyzed_exactly :
    forkGraph.fault? fork.instructions.length = none ∧ forkGraph.TreeShaped ∧
      fork.entryFrame = .ok (forkFrame .uninitialized []) ∧
      (∀ before id, forkGraph.Trail before id →
        (forkGraph.walk fork.instructions (forkFrame .uninitialized []) (before ++ [id])).fault
          = none) ∧
      (∃ before id b, forkGraph.Trail before id ∧ forkGraph.block? id = some b ∧ b.Holds 7 ∧
        (forkGraph.walk fork.instructions (forkFrame .uninitialized []) (before ++ [id])).steps[
          (forkGraph.code fork.instructions before).length + (7 - b.start)]?
            = some ⟨forkFrame (.int (some 2)) [], forkFrame (.int (some 2)) []⟩) ∧
      ((visitsOf (analyze .unbounded fork forkGraph).log).map Prod.fst).Nodup := by
  have hgraph : forkGraph.fault? fork.instructions.length = none := by cbv
  have htree : forkGraph.TreeShaped := by decide +kernel
  have hentry : fork.entryFrame = .ok (forkFrame .uninitialized []) := by decide +kernel
  obtain ⟨-, hiff, hexact⟩ := trees_are_analyzed_exactly hgraph htree hentry
  obtain ⟨hrecorded, hnodup, -⟩ := hexact forkFrames analyze_fork
  exact ⟨hgraph, htree, hentry, hiff.mp ⟨forkFrames, analyze_fork⟩,
    (hrecorded 7 _).mp (by decide +kernel), hnodup⟩

end SymbolicFrames
