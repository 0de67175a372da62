-- Which sequences of calls build a graph that fits a method. An edge from a block that is not
-- there yet is lost for good, so it matters when a call is made and not only what it asks for.
-- Main statement: the check of a graph passes exactly if the calls that built it were in
-- order, and then no edge has been lost.
import Mathlib
import SymbolicFrames.Proofs.Graphs

namespace SymbolicFrames

namespace Graph

/-! ## Calls -/

/-- What can be asked for while a graph is built. -/
inductive Call where
  | block (start stop : Index)
  | edge (source target : BlockId)
  | exceptionEdge (source handler : BlockId) (caught : Option ClassName)

namespace Call

/-- The graph after the call. -/
def apply (g : Graph) : Call → Graph
  | .block start stop => g.addBlock start stop
  | .edge source target => g.addEdge source target
  | .exceptionEdge source handler caught => g.addExceptionEdge source handler caught

/-- The block that the call asks for, if it asks for one. -/
def block? : Call → Option Block
  | .block start stop => some ⟨start, stop⟩
  | _ => none

/-- The edge that the call asks for, with the block it is to leave. -/
def edge? : Call → Option (BlockId × Edge)
  | .block .. => none
  | .edge source target => some (source, ⟨target, .normal⟩)
  | .exceptionEdge source handler caught => some (source, ⟨handler, .exception caught⟩)

/-- The edge that the call asks for, if it is to leave the block. -/
def edgeFrom? (id : BlockId) (call : Call) : Option Edge :=
  match call.edge? with
  | some (source, found) => if source = id then some found else none
  | none => none

/-- Every call asks for a block or for an edge. -/
theorem block_or_edge (call : Call) :
    (∃ b : Block, call.block? = some b ∧ call.edge? = none ∧
      ∀ g, apply g call = g.addBlock b.start b.stop) ∨
    (∃ source edge, call.block? = none ∧ call.edge? = some (source, edge) ∧
      ∀ g, apply g call = g.insertEdge source edge) := by
  cases call with
  | block start stop => exact Or.inl ⟨⟨start, stop⟩, rfl, rfl, fun _ => rfl⟩
  | edge source target => exact Or.inr ⟨source, _, rfl, rfl, fun _ => rfl⟩
  | exceptionEdge source handler caught => exact Or.inr ⟨source, _, rfl, rfl, fun _ => rfl⟩

theorem edgeFrom?_eq_some_iff {id : BlockId} {call : Call} {edge : Edge} :
    call.edgeFrom? id = some edge ↔ call.edge? = some (id, edge) := by
  unfold edgeFrom?
  rcases call.edge? with _ | ⟨source, found⟩
  · simp
  · by_cases h : source = id <;> simp [h]

end Call

/-- The graph that a sequence of calls builds. -/
def build (calls : List Call) : Graph := calls.foldl Call.apply empty

/-- The blocks that were asked for. Each has its place in this list as its number. -/
def blocksOf (calls : List Call) : List Block := calls.filterMap Call.block?

/-- The edges out of a block that were asked for, in the order of the calls. -/
def edgesFrom (calls : List Call) (id : BlockId) : List Edge := calls.filterMap (Call.edgeFrom? id)

/-- Every edge is asked for when the block it leaves has been added. -/
def SourcesAdded (calls : List Call) : Prop :=
  ∀ before call after source edge, calls = before ++ call :: after →
    call.edge? = some (source, edge) → source < (blocksOf before).length

/-- Calls that build a graph for a method of so many instructions. -/
structure WellBuilt (calls : List Call) (instructions : Nat) : Prop where
  has_block : ∃ start stop, Call.block start stop ∈ calls
  sources_added : SourcesAdded calls
  /-- The block that an edge leads to is added sooner or later. -/
  target_added : ∀ {call source edge}, call ∈ calls → call.edge? = some (source, edge) →
    edge.target < (blocksOf calls).length
  within : ∀ {start stop}, Call.block start stop ∈ calls → start < stop ∧ stop ≤ instructions
  /-- No two blocks have an instruction in common. -/
  apart : ∀ {id₁ id₂ : BlockId} {b₁ b₂ : Block}, (blocksOf calls)[id₁]? = some b₁ →
    (blocksOf calls)[id₂]? = some b₂ → id₁ ≠ id₂ → ∀ i, b₁.Holds i → ¬ b₂.Holds i

/-! ## What one call does -/

section OneCall

variable (g : Graph) (start stop : Index) (source id : BlockId) (edge : Edge)

@[simp]
theorem size_addBlock : (g.addBlock start stop).size = g.size + 1 := by
  simp [addBlock, size]

@[simp]
theorem size_insertEdge : (g.insertEdge source edge).size = g.size := by
  unfold insertEdge
  split <;> simp [size]

theorem block?_addBlock :
    (g.addBlock start stop).block? id =
      if id = g.size then some ⟨start, stop⟩ else g.block? id := by
  simp only [addBlock, block?, size, Array.getElem?_push]
  by_cases h : id = g.nodes.size <;> simp [h]

@[simp]
theorem block?_insertEdge : (g.insertEdge source edge).block? id = g.block? id := by
  unfold insertEdge block?
  split
  · rw [Array.getElem?_modify]
    split
    · rw [Option.map_map]
      rfl
    · rfl
  · rfl

@[simp]
theorem successors_addBlock : (g.addBlock start stop).successors id = g.successors id := by
  simp only [addBlock, successors, Array.getElem?_push]
  by_cases h : id = g.nodes.size
  · simp [h]
  · simp [h]

theorem successors_insertEdge (h : source < g.size) :
    (g.insertEdge source edge).successors id =
      g.successors id ++ if source = id then [edge] else [] := by
  have hadded : source < g.nodes.size := h
  rw [insertEdge, if_pos hadded]
  simp only [successors, Array.getElem?_modify]
  by_cases hid : source = id
  · subst hid
    obtain ⟨node, hnode⟩ := exists_node_of_lt h
    simp [hnode]
  · simp [hid]

theorem dangling_insertEdge_eq_nil_iff :
    (g.insertEdge source edge).dangling = [] ↔ g.dangling = [] ∧ source < g.size := by
  unfold insertEdge size
  split
  · rename_i h
    simp [h]
  · rename_i h
    simp [h]

end OneCall

/-! ## What a sequence of calls does -/

theorem build_concat (calls : List Call) (call : Call) :
    build (calls ++ [call]) = Call.apply (build calls) call := by
  simp [build, List.foldl_append]

theorem blocksOf_concat (calls : List Call) (call : Call) :
    blocksOf (calls ++ [call]) = blocksOf calls ++ call.block?.toList := by
  rcases h : call.block? with _ | b <;> simp [blocksOf, h]

theorem edgesFrom_concat (calls : List Call) (call : Call) (id : BlockId) :
    edgesFrom (calls ++ [call]) id = edgesFrom calls id ++ (call.edgeFrom? id).toList := by
  rcases h : call.edgeFrom? id with _ | edge <;> simp [edgesFrom, h]

theorem size_build (calls : List Call) : (build calls).size = (blocksOf calls).length := by
  induction calls using List.reverseRecOn with
  | nil => rfl
  | append_singleton calls call ih =>
    rw [build_concat, blocksOf_concat]
    rcases call.block_or_edge with ⟨b, hb, -, happly⟩ | ⟨source, edge, hb, -, happly⟩
    · simp [happly, hb, ih]
    · simp [happly, hb, ih]

theorem block?_build (calls : List Call) (id : BlockId) :
    (build calls).block? id = (blocksOf calls)[id]? := by
  induction calls using List.reverseRecOn with
  | nil => rfl
  | append_singleton calls call ih =>
    rw [build_concat, blocksOf_concat]
    rcases call.block_or_edge with ⟨b, hb, -, happly⟩ | ⟨source, edge, hb, -, happly⟩
    · rw [happly, hb, block?_addBlock, size_build, ih, Option.toList_some]
      rcases Nat.lt_trichotomy id (blocksOf calls).length with hlt | rfl | hgt
      · rw [if_neg (Nat.ne_of_lt hlt), List.getElem?_append_left hlt]
      · simp
      · rw [if_neg (Nat.ne_of_gt hgt), List.getElem?_eq_none (Nat.le_of_lt hgt),
          List.getElem?_eq_none (by simpa using Nat.succ_le_of_lt hgt)]
    · simp [happly, hb, ih]

theorem sourcesAdded_concat {calls : List Call} {call : Call} :
    SourcesAdded (calls ++ [call]) ↔ SourcesAdded calls ∧
      ∀ source edge, call.edge? = some (source, edge) → source < (blocksOf calls).length := by
  constructor
  · intro h
    refine ⟨?_, fun source edge => h calls call [] source edge rfl⟩
    rintro before call' after source edge rfl
    exact h before call' (after ++ [call]) source edge (by simp)
  · rintro ⟨hcalls, hcall⟩ before call' after source edge heq hedge
    rcases List.eq_nil_or_concat after with rfl | ⟨after', last, rfl⟩
    · obtain ⟨rfl, hlast⟩ := List.append_inj' heq rfl
      rw [List.singleton_inj] at hlast
      exact hcall source edge (hlast ▸ hedge)
    · rw [List.concat_eq_append, ← List.cons_append, ← List.append_assoc] at heq
      obtain ⟨rfl, -⟩ := List.append_inj' heq rfl
      exact hcalls before call' after' source edge rfl hedge

/-- No edge is lost exactly if each was asked for after the block it leaves. -/
theorem dangling_build_eq_nil_iff (calls : List Call) :
    (build calls).dangling = [] ↔ SourcesAdded calls := by
  induction calls using List.reverseRecOn with
  | nil => simp [build, empty, SourcesAdded]
  | append_singleton calls call ih =>
    rw [build_concat, sourcesAdded_concat, ← ih, ← size_build]
    rcases call.block_or_edge with ⟨b, -, hedge, happly⟩ | ⟨source, edge, -, hedge, happly⟩
    · simp [happly, hedge, addBlock]
    · simp [happly, hedge, dangling_insertEdge_eq_nil_iff]

theorem successors_build {calls : List Call} (h : SourcesAdded calls) (id : BlockId) :
    (build calls).successors id = edgesFrom calls id := by
  induction calls using List.reverseRecOn with
  | nil => simp [build, empty, successors, edgesFrom]
  | append_singleton calls call ih =>
    rw [sourcesAdded_concat, ← size_build] at h
    rw [build_concat, edgesFrom_concat]
    rcases call.block_or_edge with ⟨b, -, hedge, happly⟩ | ⟨source, edge, -, hedge, happly⟩
    · rw [happly, successors_addBlock, ih h.1]
      simp [Call.edgeFrom?, hedge]
    · rw [happly, successors_insertEdge _ _ _ _ (h.2 source edge hedge), ih h.1]
      by_cases hid : source = id <;> simp [Call.edgeFrom?, hedge, hid]

theorem mem_edgesFrom_iff {calls : List Call} {id : BlockId} {edge : Edge} :
    edge ∈ edgesFrom calls id ↔ ∃ call ∈ calls, call.edge? = some (id, edge) := by
  simp only [edgesFrom, List.mem_filterMap, Call.edgeFrom?_eq_some_iff]

theorem mem_blocksOf_iff {calls : List Call} {b : Block} :
    b ∈ blocksOf calls ↔ Call.block b.start b.stop ∈ calls := by
  rw [blocksOf, List.mem_filterMap]
  constructor
  · rintro ⟨call, hcall, hb⟩
    cases call with
    | block start stop =>
      cases hb
      exact hcall
    | edge source target => cases hb
    | exceptionEdge source handler caught => cases hb
  · intro h
    exact ⟨_, h, rfl⟩

/-! ## The check -/

theorem wellBuilt_of_valid {calls : List Call} {n : Nat} (hadded : SourcesAdded calls)
    (hvalid : (build calls).Valid n) : WellBuilt calls n := by
  refine ⟨?_, hadded, ?_, ?_, ?_⟩
  · have hpos := hvalid.has_entry
    rw [size_build, entry, List.length_pos_iff_exists_mem] at hpos
    obtain ⟨b, hb⟩ := hpos
    exact ⟨b.start, b.stop, mem_blocksOf_iff.mp hb⟩
  · intro call source edge hcall hedge
    have hmem : edge ∈ (build calls).successors source := by
      rw [successors_build hadded, mem_edgesFrom_iff]
      exact ⟨call, hcall, hedge⟩
    rw [← size_build]
    exact hvalid.target_lt hmem
  · intro start stop hcall
    have hmem : (⟨start, stop⟩ : Block) ∈ blocksOf calls := mem_blocksOf_iff.mpr hcall
    obtain ⟨id, hid⟩ := List.mem_iff_getElem?.mp hmem
    rw [← block?_build] at hid
    exact ⟨hvalid.nonempty hid, hvalid.within hid⟩
  · intro id₁ id₂ b₁ b₂ hb₁ hb₂ hne i hi₁ hi₂
    rw [← block?_build] at hb₁ hb₂
    exact hne (hvalid.apart hb₁ hb₂ hi₁ hi₂)

theorem valid_of_wellBuilt {calls : List Call} {n : Nat} (h : WellBuilt calls n) :
    (build calls).Valid n := by
  have hwithin : ∀ {id b}, (build calls).block? id = some b → b.start < b.stop ∧ b.stop ≤ n := by
    intro id b hb
    rw [block?_build] at hb
    exact h.within (mem_blocksOf_iff.mp (List.mem_of_getElem? hb))
  refine ⟨?_, fun hb => (hwithin hb).1, fun hb => (hwithin hb).2, ?_, ?_⟩
  · obtain ⟨start, stop, hcall⟩ := h.has_block
    rw [size_build, entry, List.length_pos_iff_exists_mem]
    exact ⟨⟨start, stop⟩, mem_blocksOf_iff.mpr hcall⟩
  · intro id edge hedge
    rw [successors_build h.sources_added, mem_edgesFrom_iff] at hedge
    obtain ⟨call, hcall, hedge⟩ := hedge
    rw [size_build]
    exact h.target_added hcall hedge
  · intro id₁ id₂ b₁ b₂ i hb₁ hb₂ hi₁ hi₂
    rw [block?_build] at hb₁ hb₂
    by_contra hne
    exact h.apart hb₁ hb₂ hne i hi₁ hi₂

end Graph

/-- A graph passes its check exactly if it was well built, and then every edge that was asked
for leaves its block, in the order of the calls. -/
theorem graph_passes_its_check_iff_it_is_well_built (calls : List Graph.Call)
    (instructions : Nat) :
    ((Graph.build calls).fault? instructions = none ↔ Graph.WellBuilt calls instructions) ∧
      ((Graph.build calls).fault? instructions = none →
        ∀ id, (Graph.build calls).successors id = Graph.edgesFrom calls id) := by
  rw [Graph.fault?_eq_none_iff, Graph.dangling_build_eq_nil_iff]
  refine ⟨⟨?_, ?_⟩, ?_⟩
  · rintro ⟨hadded, hvalid⟩
    exact Graph.wellBuilt_of_valid hadded hvalid
  · intro h
    exact ⟨h.sources_added, Graph.valid_of_wellBuilt h⟩
  · rintro ⟨hadded, -⟩
    exact Graph.successors_build hadded

/-! ## A branch and its handler -/

/-- The blocks are not added in the order of their instructions, and an edge may lead to a
block that is still to be added. -/
def branchCalls : List Graph.Call :=
  [.block 0 2, .edge 0 1, .exceptionEdge 0 2 none, .block 3 4, .block 2 3, .edge 0 2, .edge 1 1]

theorem branch_keeps_its_edges_in_order :
    (Graph.build branchCalls).fault? 4 = none ∧ Graph.WellBuilt branchCalls 4 ∧
      (Graph.build branchCalls).successors 0 =
        [⟨1, .normal⟩, ⟨2, .exception none⟩, ⟨2, .normal⟩] := by
  have hfault : (Graph.build branchCalls).fault? 4 = none := by cbv
  obtain ⟨hiff, hsuccessors⟩ := graph_passes_its_check_iff_it_is_well_built branchCalls 4
  exact ⟨hfault, hiff.mp hfault, hsuccessors hfault 0⟩

-- The same two calls in the other order lose the edge.
example : (Graph.build [.block 0 1, .edge 0 0]).fault? 1 = none ∧
    (Graph.build [.edge 0 0, .block 0 1]).fault? 1 = some (.danglingEdge 0) := by
  constructor <;> cbv

end SymbolicFrames
