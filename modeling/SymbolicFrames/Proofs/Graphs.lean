-- What a graph that passes the check promises: it has a first block, its blocks are cut out
-- of the method without overlap, and its edges lead to blocks. And which blocks control can
-- reach.
import Mathlib.Data.List.Pairwise
import SymbolicFrames.Graph.Validity

namespace SymbolicFrames

/-- The instruction belongs to the block. -/
def Block.Holds (b : Block) (i : Index) : Prop := b.start ≤ i ∧ i < b.stop

namespace Graph

/-- The blocks that control can reach from the first one, along edges of either kind. -/
inductive Reachable (g : Graph) : BlockId → Prop
  | entry : Reachable g entry
  | along {id : BlockId} {edge : Edge} :
      Reachable g id → edge ∈ g.successors id → Reachable g edge.target

/-- The graph fits a method of so many instructions. -/
structure Valid (g : Graph) (instructions : Nat) : Prop where
  has_entry : entry < g.size
  nonempty : ∀ {id b}, g.block? id = some b → b.start < b.stop
  within : ∀ {id b}, g.block? id = some b → b.stop ≤ instructions
  target_lt : ∀ {id edge}, edge ∈ g.successors id → edge.target < g.size
  apart : ∀ {id₁ id₂ b₁ b₂ i}, g.block? id₁ = some b₁ → g.block? id₂ = some b₂ →
    b₁.Holds i → b₂.Holds i → id₁ = id₂

/-! ## Looking up -/

theorem block?_eq_some_iff {g : Graph} {id : BlockId} {b : Block} :
    g.block? id = some b ↔ ∃ node, g.nodes[id]? = some node ∧ node.block = b := by
  simp [block?, Option.map_eq_some_iff]

theorem successors_of_node {g : Graph} {id : BlockId} {node : Node}
    (h : g.nodes[id]? = some node) : g.successors id = node.edges := by
  simp [successors, h]

theorem exists_node_of_lt {g : Graph} {id : BlockId} (h : id < g.size) :
    ∃ node, g.nodes[id]? = some node :=
  ⟨g.nodes[id], Array.getElem?_eq_getElem h⟩

theorem exists_node_of_mem_successors {g : Graph} {id : BlockId} {edge : Edge}
    (h : edge ∈ g.successors id) : ∃ node, g.nodes[id]? = some node ∧ edge ∈ node.edges := by
  rcases hnode : g.nodes[id]? with _ | node
  · simp [successors, hnode] at h
  · rw [successors_of_node hnode] at h
    exact ⟨node, rfl, h⟩

theorem mem_blocks_iff {g : Graph} {id : BlockId} {b : Block} :
    (id, b) ∈ g.blocks ↔ g.block? id = some b := by
  rw [block?_eq_some_iff]
  unfold blocks
  rw [List.mem_map]
  constructor
  · rintro ⟨⟨node, i⟩, hmem, heq⟩
    rw [List.mk_mem_zipIdx_iff_getElem?, Array.getElem?_toList] at hmem
    simp only [Prod.mk.injEq] at heq
    obtain ⟨rfl, rfl⟩ := heq
    exact ⟨node, hmem, rfl⟩
  · rintro ⟨node, hnode, rfl⟩
    refine ⟨(node, id), ?_, rfl⟩
    rw [List.mk_mem_zipIdx_iff_getElem?, Array.getElem?_toList]
    exact hnode

/-! ## The check -/

theorem blockFault?_eq_none_iff {g : Graph} {n : Nat} {id : BlockId} {b : Block} :
    g.blockFault? n id b = none ↔
      b.start < b.stop ∧ b.stop ≤ n ∧ ∀ edge ∈ g.successors id, edge.target < g.size := by
  unfold blockFault? Block.isEmpty Block.size
  split
  · rename_i hempty
    rw [beq_iff_eq] at hempty
    simp only [reduceCtorEq, false_iff, not_and]
    lia
  · rename_i hempty
    rw [beq_iff_eq] at hempty
    split
    · simp only [reduceCtorEq, false_iff, not_and]
      lia
    · rw [List.findSome?_eq_none_iff]
      constructor
      · intro h
        refine ⟨by lia, by lia, ?_⟩
        intro edge hedge
        by_contra hlt
        simpa [hlt] using h edge hedge
      · rintro ⟨-, -, h⟩ edge hedge
        exact if_pos (h edge hedge)

/-- Where no two neighbours overlap and no block is empty, no block reaches into a later
one. The order of the blocks in the list does not matter here. -/
theorem pairwise_of_overlap?_eq_none {l : List (BlockId × Block)}
    (hne : ∀ x ∈ l, x.2.start < x.2.stop) (h : overlap? l = none) :
    l.Pairwise fun x y => x.2.stop ≤ y.2.start := by
  induction l with
  | nil => exact .nil
  | cons x rest ih =>
    cases rest with
    | nil => simp
    | cons y rest =>
      simp only [overlap?] at h
      split at h
      · contradiction
      · rename_i hxy
        have htail := ih (fun z hz => hne z (List.mem_cons_of_mem x hz)) h
        refine .cons ?_ htail
        intro z hz
        rcases List.mem_cons.mp hz with rfl | hz
        · exact Nat.le_of_not_lt hxy
        · have hyz := List.rel_of_pairwise_cons htail hz
          have hy := hne y (by simp)
          lia

theorem overlap?_eq_none_of_pairwise {l : List (BlockId × Block)}
    (h : l.Pairwise fun x y => x.2.stop ≤ y.2.start) : overlap? l = none := by
  induction l with
  | nil => rfl
  | cons x rest ih =>
    cases rest with
    | nil => rfl
    | cons y rest =>
      have hxy := List.rel_of_pairwise_cons h List.mem_cons_self
      rw [overlap?, if_neg (Nat.not_lt_of_le hxy)]
      exact ih h.of_cons

theorem apart_of_pairwise {l : List (BlockId × Block)}
    (h : l.Pairwise fun x y => x.2.stop ≤ y.2.start) {x y : BlockId × Block} {i : Index}
    (hx : x ∈ l) (hy : y ∈ l) (hxi : x.2.Holds i) (hyi : y.2.Holds i) : x = y := by
  have hsymm : l.Pairwise fun x y => x.2.stop ≤ y.2.start ∨ y.2.stop ≤ x.2.start :=
    h.imp Or.inl
  have : Std.Symm fun x y : BlockId × Block =>
      x.2.stop ≤ y.2.start ∨ y.2.stop ≤ x.2.start := ⟨fun _ _ => Or.symm⟩
  by_contra hne
  unfold Block.Holds at hxi hyi
  rcases hsymm.forall hx hy hne with hlt | hlt <;> lia

theorem mem_sortedBlocks_iff {g : Graph} {id : BlockId} {b : Block} :
    (id, b) ∈ g.sortedBlocks ↔ g.block? id = some b := by
  rw [sortedBlocks, List.mem_mergeSort, mem_blocks_iff]

theorem pairwise_start_sortedBlocks (g : Graph) :
    g.sortedBlocks.Pairwise fun x y => x.2.start ≤ y.2.start := by
  have hsorted : g.sortedBlocks.Pairwise fun x y => decide (x.2.start ≤ y.2.start) = true :=
    List.pairwise_mergeSort (fun x y z => by simpa using Nat.le_trans)
      (fun x y => by simpa using Nat.le_total _ _) g.blocks
  simpa using hsorted

theorem pairwise_id_sortedBlocks (g : Graph) :
    g.sortedBlocks.Pairwise fun x y => x.1 ≠ y.1 := by
  have hids : g.blocks.map Prod.fst = List.range' 0 g.nodes.toList.length := by
    unfold blocks
    rw [List.map_map, ← List.zipIdx_map_snd]
    rfl
  have hnodup : (g.sortedBlocks.map Prod.fst).Nodup := by
    unfold sortedBlocks
    rw [((List.mergeSort_perm g.blocks _).map Prod.fst).nodup_iff, hids]
    exact List.nodup_range'
  exact List.pairwise_map.mp hnodup

/-- In the order of their first instructions, blocks without a common instruction end before
the next one starts. -/
theorem Valid.pairwise_sortedBlocks {g : Graph} {n : Nat} (h : g.Valid n) :
    g.sortedBlocks.Pairwise fun x y => x.2.stop ≤ y.2.start := by
  refine (g.pairwise_start_sortedBlocks.and g.pairwise_id_sortedBlocks).imp_of_mem ?_
  rintro ⟨id₁, b₁⟩ ⟨id₂, b₂⟩ hx hy ⟨hstart, hne⟩
  have hb₁ := mem_sortedBlocks_iff.mp hx
  have hb₂ := mem_sortedBlocks_iff.mp hy
  have hnonempty := h.nonempty hb₂
  by_contra hlt
  -- The first instruction of the later block would lie in both.
  refine hne (h.apart hb₁ hb₂ (i := b₂.start) ?_ ?_)
  · exact ⟨hstart, Nat.lt_of_not_le hlt⟩
  · exact ⟨Nat.le_refl _, hnonempty⟩

theorem valid_of_no_fault {g : Graph} {n : Nat} (hempty : ¬ g.isEmpty = true)
    (hblocks : ∀ {id b}, g.block? id = some b → g.blockFault? n id b = none)
    (hoverlap : overlap? g.sortedBlocks = none) : g.Valid n := by
  have hapart : g.sortedBlocks.Pairwise fun x y => x.2.stop ≤ y.2.start := by
    apply pairwise_of_overlap?_eq_none _ hoverlap
    rintro ⟨id, b⟩ hx
    exact (blockFault?_eq_none_iff.mp (hblocks (mem_sortedBlocks_iff.mp hx))).1
  refine ⟨?_, fun hb => (blockFault?_eq_none_iff.mp (hblocks hb)).1,
    fun hb => (blockFault?_eq_none_iff.mp (hblocks hb)).2.1, ?_, ?_⟩
  · simp only [isEmpty, Array.isEmpty_iff] at hempty
    exact Array.size_pos_iff.mpr hempty
  · intro id edge hedge
    obtain ⟨node, hnode, -⟩ := exists_node_of_mem_successors hedge
    have hb : g.block? id = some node.block := block?_eq_some_iff.mpr ⟨node, hnode, rfl⟩
    exact (blockFault?_eq_none_iff.mp (hblocks hb)).2.2 edge hedge
  · intro id₁ id₂ b₁ b₂ i hb₁ hb₂ hi₁ hi₂
    have heq := apart_of_pairwise hapart (mem_sortedBlocks_iff.mpr hb₁)
      (mem_sortedBlocks_iff.mpr hb₂) hi₁ hi₂
    exact congrArg Prod.fst heq

/-- The check finds nothing wrong exactly if no edge is lost and the graph is valid. -/
theorem fault?_eq_none_iff {g : Graph} {n : Nat} :
    g.fault? n = none ↔ g.dangling = [] ∧ g.Valid n := by
  unfold fault?
  split
  · rename_i hempty
    have hsize : g.size = 0 := Array.size_eq_zero_iff.mpr (Array.isEmpty_iff.mp hempty)
    constructor
    · intro h
      contradiction
    · rintro ⟨-, hvalid⟩
      exact absurd hsize (Nat.ne_of_gt hvalid.has_entry)
  · rename_i hempty
    split
    · rename_i hdangling
      simp [hdangling]
    · rename_i hdangling
      rw [Option.or_eq_none_iff, List.findSome?_eq_none_iff]
      constructor
      · rintro ⟨hblocks, hoverlap⟩
        have hfault : ∀ {id b}, g.block? id = some b → g.blockFault? n id b = none :=
          fun hb => hblocks _ (mem_blocks_iff.mpr hb)
        exact ⟨hdangling, valid_of_no_fault hempty hfault hoverlap⟩
      · rintro ⟨-, hvalid⟩
        refine ⟨?_, overlap?_eq_none_of_pairwise hvalid.pairwise_sortedBlocks⟩
        rintro ⟨id, b⟩ hmem
        have hb := mem_blocks_iff.mp hmem
        exact blockFault?_eq_none_iff.mpr
          ⟨hvalid.nonempty hb, hvalid.within hb, fun edge hedge => hvalid.target_lt hedge⟩

theorem valid_of_fault?_eq_none {g : Graph} {n : Nat} (h : g.fault? n = none) : g.Valid n :=
  (fault?_eq_none_iff.mp h).2

end Graph

end SymbolicFrames
