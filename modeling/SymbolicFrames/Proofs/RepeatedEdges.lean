-- An edge that a block already has. Along it the same frames go to the same block once more,
-- and by then that block has taken them in, whatever was joined into its frame in between.
-- Main statement: the report is the same with the edge added once more as without.
import SymbolicFrames.Proofs.GraphBuilding
import SymbolicFrames.Proofs.Lockstep

namespace SymbolicFrames

/-! ## Deliveries -/

namespace Worklist

theorem propagate_of_takes {w : Worklist} {d : Delivery} (h : w.Takes d) :
    w.propagate d = .ok (w, false) := by
  obtain ⟨f, hf, habsorbs⟩ := h
  rw [frameAt?_eq_some_iff] at hf
  unfold Frame.Absorbs at habsorbs
  simp [propagate, hf, habsorbs]

/-- What has been taken in can be delivered again without effect. -/
theorem deliver_of_takes {w : Worklist} {ds : List Delivery} (h : ∀ d ∈ ds, w.Takes d) :
    w.deliver ds = .success w := by
  induction ds with
  | nil => rfl
  | cons d rest ih =>
    have hrest := ih fun d' hd' => h d' (List.mem_cons_of_mem d hd')
    simp [deliver, propagate_of_takes (h d List.mem_cons_self), hrest, Report.success,
      Report.after]

end Worklist

namespace Delivery

/-- Whichever of the two is delivered, it comes to the same. -/
def SameEffect (ds ds' : List Delivery) : Prop :=
  ∀ w : Worklist, w.Sound → w.deliver ds' = w.deliver ds

namespace SameEffect

theorem refl (ds : List Delivery) : SameEffect ds ds := fun _ _ => rfl

theorem append {ds₁ ds₁' ds₂ ds₂' : List Delivery} (h₁ : SameEffect ds₁ ds₁')
    (h₂ : SameEffect ds₂ ds₂') : SameEffect (ds₁ ++ ds₂) (ds₁' ++ ds₂') := by
  intro w hw
  rw [Worklist.deliver_append, Worklist.deliver_append, h₁ w hw]
  apply Report.andThen_congr
  intro next hnext
  exact h₂ next (Worklist.sound_deliver hw hnext)

theorem flatMap {α : Type} {sent sent' : α → List Delivery}
    (h : ∀ a, SameEffect (sent a) (sent' a)) (l : List α) :
    SameEffect (l.flatMap sent) (l.flatMap sent') := by
  induction l with
  | nil => exact refl []
  | cons a rest ih =>
    rw [List.flatMap_cons, List.flatMap_cons]
    exact (h a).append ih

/-- Deliveries that are made a second time are absorbed. Others may come in between, as what
has been taken in stays absorbed by all that the frame of a block becomes later. -/
theorem of_repeated {ds again : List Delivery} (h : ∀ d ∈ again, d ∈ ds) :
    SameEffect ds (ds ++ again) := by
  intro w hw
  rw [Worklist.deliver_append]
  calc (w.deliver ds).andThen (·.deliver again)
      = (w.deliver ds).andThen .success := by
        apply Report.andThen_congr
        intro next hnext
        apply Worklist.deliver_of_takes
        intro d hd
        exact Worklist.takes_deliver hw hnext d (h d hd)
    _ = w.deliver ds := Report.andThen_success _

/-- One more edge of a kind that is there sends nothing new. -/
theorem filterMap_concat {edges : List Edge} {edge : Edge} (sent : Edge → Option Delivery)
    (h : edge ∈ edges) :
    SameEffect (edges.filterMap sent) ((edges ++ [edge]).filterMap sent) := by
  rw [List.filterMap_append]
  apply of_repeated
  intro d hd
  obtain ⟨edge', hedge', hsent⟩ := List.mem_filterMap.mp hd
  rw [List.mem_singleton] at hedge'
  exact List.mem_filterMap.mpr ⟨edge, h, hedge' ▸ hsent⟩

end SameEffect

end Delivery

/-- All that leaves a block, with an edge of it repeated. -/
theorem Replay.sameEffect_deliveries {edges : List Edge} {edge : Edge} (h : edge ∈ edges)
    (defaultException : ClassName) (r : Replay) :
    Delivery.SameEffect (r.deliveries defaultException edges)
      (r.deliveries defaultException (edges ++ [edge])) := by
  unfold deliveries
  apply Delivery.SameEffect.append
  · apply Delivery.SameEffect.flatMap
    intro frame
    exact .filterMap_concat _ h
  · split
    · exact .filterMap_concat _ h
    · exact .refl []

/-! ## The graph with the edge -/

namespace Graph

variable {g : Graph} {source id : BlockId} {edge : Edge}

theorem lt_size_of_mem_successors (h : edge ∈ g.successors source) : source < g.size := by
  obtain ⟨node, hnode, -⟩ := exists_node_of_mem_successors h
  exact (Array.getElem?_eq_some_iff.mp hnode).1

theorem getElem?_blocks (g : Graph) (id : BlockId) :
    g.blocks[id]? = (g.block? id).map fun b => (id, b) := by
  simp [blocks, block?, Function.comp_def]

theorem blocks_insertEdge (g : Graph) (source : BlockId) (edge : Edge) :
    (g.insertEdge source edge).blocks = g.blocks := by
  apply List.ext_getElem?
  intro id
  rw [getElem?_blocks, getElem?_blocks, block?_insertEdge]

theorem blockFault?_insertEdge (h : edge ∈ g.successors source) (instructions : Nat)
    (id : BlockId) (b : Block) :
    (g.insertEdge source edge).blockFault? instructions id b
      = g.blockFault? instructions id b := by
  unfold blockFault?
  rw [size_insertEdge, successors_insertEdge _ _ _ _ (lt_size_of_mem_successors h)]
  by_cases hid : source = id
  · subst hid
    rw [if_pos rfl, List.findSome?_append]
    -- If the edge leads nowhere, the one that was there before it is found first.
    rcases hfound : (g.successors source).findSome? _ with _ | fault
    · simp [List.findSome?_eq_none_iff.mp hfound edge h]
    · simp
  · rw [if_neg hid, List.append_nil]

/-- The check finds the same fault, or none either way. -/
theorem fault?_insertEdge (h : edge ∈ g.successors source) (instructions : Nat) :
    (g.insertEdge source edge).fault? instructions = g.fault? instructions := by
  have hlt : source < g.nodes.size := lt_size_of_mem_successors h
  have hempty : (g.insertEdge source edge).isEmpty = g.isEmpty := by
    change decide ((g.insertEdge source edge).size = 0) = decide (g.size = 0)
    rw [size_insertEdge]
  have hdangling : (g.insertEdge source edge).dangling = g.dangling := by
    simp [insertEdge, hlt]
  unfold fault? sortedBlocks
  simp only [hempty, hdangling, blocks_insertEdge, blockFault?_insertEdge h]

/-- The block is still there, with its edges and perhaps one of them repeated. -/
theorem node_insertEdge (h : edge ∈ g.successors source) {node : Node}
    (hnode : g.nodes[id]? = some node) :
    ∃ node', (g.insertEdge source edge).nodes[id]? = some node' ∧ node'.block = node.block ∧
      (node'.edges = node.edges ∨ edge ∈ node.edges ∧ node'.edges = node.edges ++ [edge]) := by
  have hlt : source < g.nodes.size := lt_size_of_mem_successors h
  by_cases hid : source = id
  · subst hid
    rw [successors_of_node hnode] at h
    refine ⟨{ node with edges := node.edges ++ [edge] }, ?_, rfl, Or.inr ⟨h, rfl⟩⟩
    rw [insertEdge, if_pos hlt, Array.getElem?_modify, if_pos rfl, hnode, Option.map_some]
  · refine ⟨node, ?_, rfl, Or.inl rfl⟩
    rw [insertEdge, if_pos hlt, Array.getElem?_modify, if_neg hid, hnode]

end Graph

/-! ## The whole analysis -/

theorem Problem.keepsStep_insertEdge {graph : Graph} {source : BlockId} {edge : Edge}
    (settings : Settings) (method : Method) (h : edge ∈ graph.successors source) :
    Problem.KeepsStep ⟨settings, method, graph⟩
      ⟨settings, method, graph.insertEdge source edge⟩ where
  settings_eq := rfl
  text_eq := rfl
  length_eq := rfl
  entryFrame_eq := rfl
  size_eq := graph.size_insertEdge source edge
  fault?_eq := Graph.fault?_insertEdge h _
  same_visit := by
    intro id frame waiting node hvisit
    obtain ⟨node', hnode', hblock, hedges⟩ := Graph.node_insertEdge h hvisit.node_eq
    refine ⟨⟨node', hnode', hblock, ?_⟩, rfl⟩
    simp only [sends, replay, hblock]
    rcases hedges with hsame | ⟨hmem, hmore⟩
    · rw [hsame]
    · rw [hmore]
      exact Replay.sameEffect_deliveries hmem _ _ waiting hvisit.sound

/-- To add an edge to a block that has the same one already, for control that goes on or for an
exception that is caught, changes neither the frames nor the failure, and no visit either. -/
theorem repeating_an_edge_changes_nothing (settings : Settings) (method : Method) (graph : Graph)
    (source : BlockId) :
    (∀ target, ⟨target, .normal⟩ ∈ graph.successors source →
      analyze settings method (graph.addEdge source target) = analyze settings method graph) ∧
    (∀ handler caught, ⟨handler, .exception caught⟩ ∈ graph.successors source →
      analyze settings method (graph.addExceptionEdge source handler caught)
        = analyze settings method graph) := by
  constructor
  · intro target h
    exact analyze_eq_of_keepsStep (Problem.keepsStep_insertEdge settings method h)
  · intro handler caught h
    exact analyze_eq_of_keepsStep (Problem.keepsStep_insertEdge settings method h)

/-- The block of the loop leads back to itself and has a handler, and either edge may be there
twice. -/
theorem countdown_may_repeat_its_edges :
    ⟨1, .normal⟩ ∈ countdownGraph.successors 1 ∧
      ⟨2, .exception none⟩ ∈ countdownGraph.successors 1 ∧
      (analyze .default countdown (countdownGraph.addEdge 1 1)).result = .ok countdownFrames ∧
      (analyze .default countdown (countdownGraph.addExceptionEdge 1 2 none)).result
        = .ok countdownFrames := by
  have hloop : ⟨1, .normal⟩ ∈ countdownGraph.successors 1 := by decide
  have hhandler : ⟨2, .exception none⟩ ∈ countdownGraph.successors 1 := by decide
  obtain ⟨hnormal, hexception⟩ :=
    repeating_an_edge_changes_nothing .default countdown countdownGraph 1
  refine ⟨hloop, hhandler, ?_, ?_⟩
  · rw [hnormal 1 hloop]
    exact analyze_countdown
  · rw [hexception 2 none hhandler]
    exact analyze_countdown

end SymbolicFrames
