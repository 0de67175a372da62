-- Code that control cannot reach. An analysis never looks at it: it makes visits only where
-- control can get, and a visit reads nothing but the instructions and the edges of its block.
-- Main statement: methods and graphs that differ only beyond the reach of control leave the
-- same report.
import SymbolicFrames.Proofs.Lockstep

namespace SymbolicFrames

/-- The methods differ at most in instructions outside the given range. -/
structure Method.AlikeWithin (range : Index → Prop) (m m' : Method) : Prop where
  owner_eq : m'.owner = m.owner
  name_eq : m'.name = m.name
  type_eq : m'.type = m.type
  flags_eq : m'.flags = m.flags
  maxLocals_eq : m'.maxLocals = m.maxLocals
  maxStack_eq : m'.maxStack = m.maxStack
  length_eq : m'.instructions.length = m.instructions.length
  instruction_eq : ∀ {i}, range i → m'.instructions[i]? = m.instructions[i]?

/-- The graphs have the same blocks, and the same edges leave those that control can reach. -/
structure Graph.AlikeWhereReached (g g' : Graph) : Prop where
  block?_eq : ∀ id, g'.block? id = g.block? id
  successors_eq : ∀ {id}, g.Reachable id → g'.successors id = g.successors id

/-! ## What a visit reads -/

theorem Block.slice_congr {b : Block} {instructions instructions' : List Instruction}
    (h : ∀ i, b.Holds i → instructions'[i]? = instructions[i]?) :
    b.slice instructions' = b.slice instructions := by
  apply List.ext_getElem?
  intro k
  by_cases hk : k < b.size
  · rw [getElem?_slice hk, getElem?_slice hk]
    apply h
    unfold size at hk
    unfold Holds
    lia
  · simp [slice, hk]

namespace Method.AlikeWithin

variable {range : Index → Prop} {m m' : Method}

theorem text_eq (h : m.AlikeWithin range m') : m'.text = m.text := by
  simp only [Method.text, h.owner_eq, h.name_eq, h.type_eq]

theorem entryFrame_eq (h : m.AlikeWithin range m') : m'.entryFrame = m.entryFrame := by
  simp only [Method.entryFrame, Method.receiver, h.owner_eq, h.type_eq, h.flags_eq,
    h.maxLocals_eq, h.maxStack_eq]

end Method.AlikeWithin

namespace Graph

variable {g g' : Graph}

theorem lt_size_iff {id : BlockId} : id < g.size ↔ (g.block? id).isSome := by
  simp [block?, size]

namespace AlikeWhereReached

theorem size_eq (h : g.AlikeWhereReached g') : g'.size = g.size := by
  have hlt : ∀ id, id < g'.size ↔ id < g.size := by
    intro id
    rw [lt_size_iff, lt_size_iff, h.block?_eq]
  have := hlt g.size
  have := hlt g'.size
  omega

/-- A block within reach is the same in both graphs, with its edges. -/
theorem node_eq (h : g.AlikeWhereReached g') {id : BlockId} {node : Node}
    (hid : g.Reachable id) (hnode : g.nodes[id]? = some node) : g'.nodes[id]? = some node := by
  have hblock := h.block?_eq id
  rw [block?_eq_some_iff.mpr ⟨node, hnode, rfl⟩, block?_eq_some_iff] at hblock
  obtain ⟨node', hnode', hblock'⟩ := hblock
  have hedges := h.successors_eq hid
  rw [successors_of_node hnode', successors_of_node hnode] at hedges
  rw [hnode', Option.some.injEq, Node.mk.injEq]
  exact ⟨hblock', hedges⟩

end AlikeWhereReached

end Graph

/-! ## The whole analysis -/

theorem Problem.keepsStep_of_alike {settings : Settings} {method method' : Method}
    {graph graph' : Graph} (hmethod : method.AlikeWithin graph.Reaches method')
    (hgraph : graph.AlikeWhereReached graph')
    (hfault : graph.fault? method.instructions.length = none)
    (hfault' : graph'.fault? method'.instructions.length = none) :
    Problem.KeepsStep ⟨settings, method, graph⟩ ⟨settings, method', graph'⟩ where
  settings_eq := rfl
  text_eq := hmethod.text_eq
  length_eq := hmethod.length_eq
  entryFrame_eq := hmethod.entryFrame_eq
  size_eq := hgraph.size_eq
  fault?_eq := hfault'.trans hfault.symm
  same_visit := by
    intro id frame waiting node hvisit
    -- Only blocks within reach are visited, and of the method only their instructions count.
    have hslice : node.block.slice method'.instructions = node.block.slice method.instructions := by
      apply Block.slice_congr
      intro i hi
      apply hmethod.instruction_eq
      exact ⟨id, node.block, hvisit.reachable,
        Graph.block?_eq_some_iff.mpr ⟨node, hvisit.node_eq, rfl⟩, hi⟩
    have hreplay : Problem.replay ⟨settings, method', graph'⟩ node.block frame
        = Problem.replay ⟨settings, method, graph⟩ node.block frame := by
      unfold replay
      rw [hslice]
    refine ⟨⟨node, hgraph.node_eq hvisit.reachable hvisit.node_eq, rfl, ?_⟩, hreplay⟩
    unfold sends
    rw [hreplay]

/-- Whatever stands where control cannot get, and wherever the edges out of there lead, the
frames are the same, or else the failure is, and so are all visits on the way. -/
theorem unreachable_code_is_irrelevant {settings : Settings} {method method' : Method}
    {graph graph' : Graph} (hmethod : method.AlikeWithin graph.Reaches method')
    (hgraph : graph.AlikeWhereReached graph')
    (hfault : graph.fault? method.instructions.length = none)
    (hfault' : graph'.fault? method'.instructions.length = none) :
    analyze settings method' graph' = analyze settings method graph :=
  analyze_eq_of_keepsStep (Problem.keepsStep_of_alike hmethod hgraph hfault hfault')

/-! ## Dead code that could not be executed -/

/-- Where control cannot get, it takes from an empty stack. -/
def derelict : Method :=
  { sheltered with instructions := [.nop, .returnVoid, .unary .raise, .unary .raise, .returnVoid] }

/-- Edges lead from the dead block into all others. -/
def derelictGraph : Graph where
  nodes :=
    #[⟨⟨0, 1⟩, [⟨1, .normal⟩, ⟨2, .exception none⟩]⟩,
      ⟨⟨1, 2⟩, []⟩,
      ⟨⟨2, 3⟩, []⟩,
      ⟨⟨3, 4⟩, [⟨0, .normal⟩, ⟨1, .exception none⟩, ⟨2, .normal⟩, ⟨3, .normal⟩]⟩]
  dangling := []

theorem reachable_shelteredGraph {id : BlockId} (h : shelteredGraph.Reachable id) : id < 3 := by
  induction h with
  | entry => decide
  | along _ hedge ih =>
    rename_i id edge _
    have hall : ∀ id < 3, ∀ edge ∈ shelteredGraph.successors id, edge.target < 3 := by decide
    exact hall id ih edge hedge

theorem reaches_shelteredGraph {i : Index} (h : shelteredGraph.Reaches i) : i < 3 := by
  obtain ⟨id, b, hid, hb, hi⟩ := h
  have hall : ∀ id < 3, ∀ b ∈ shelteredGraph.block? id, b.stop ≤ 3 := by decide
  exact Nat.lt_of_lt_of_le hi.2 (hall id (reachable_shelteredGraph hid) b hb)

theorem derelict_alike : sheltered.AlikeWithin shelteredGraph.Reaches derelict := by
  refine ⟨rfl, rfl, rfl, rfl, rfl, rfl, rfl, ?_⟩
  intro i hi
  have hall : ∀ i < 3, derelict.instructions[i]? = sheltered.instructions[i]? := by decide
  exact hall i (reaches_shelteredGraph hi)

theorem derelictGraph_alike : shelteredGraph.AlikeWhereReached derelictGraph := by
  constructor
  · intro id
    by_cases hid : id < 4
    · have hall : ∀ id < 4, derelictGraph.block? id = shelteredGraph.block? id := by decide
      exact hall id hid
    · simp [Graph.block?, derelictGraph, shelteredGraph, hid]
  · intro id hid
    have hall : ∀ id < 3, derelictGraph.successors id = shelteredGraph.successors id := by decide
    exact hall id (reachable_shelteredGraph hid)

/-- Nothing of it shows. -/
theorem derelict_is_analyzed_like_sheltered :
    sheltered.AlikeWithin shelteredGraph.Reaches derelict ∧
      shelteredGraph.AlikeWhereReached derelictGraph ∧
      shelteredGraph.fault? sheltered.instructions.length = none ∧
      derelictGraph.fault? derelict.instructions.length = none ∧
      derelict.instructions ≠ sheltered.instructions ∧
      derelictGraph.successors 3 ≠ shelteredGraph.successors 3 ∧
      (analyze .default derelict derelictGraph).result = .ok shelteredFrames := by
  have hfault : shelteredGraph.fault? sheltered.instructions.length = none := by cbv
  have hfault' : derelictGraph.fault? derelict.instructions.length = none := by cbv
  refine ⟨derelict_alike, derelictGraph_alike, hfault, hfault', by decide, by decide, ?_⟩
  rw [unreachable_code_is_irrelevant derelict_alike derelictGraph_alike hfault hfault']
  exact analyze_sheltered

end SymbolicFrames
