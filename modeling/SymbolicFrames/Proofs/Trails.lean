-- The ways through a graph from its first block, and what executing all instructions on such a
-- way comes to. Main statement: in a graph that is a tree there is one way to a block at most.
import Mathlib.Data.List.Nodup
import SymbolicFrames.Proofs.Replays

namespace SymbolicFrames

namespace Graph

/-! ## Trees -/

/-- Every edge of the graph, as often as it was added. -/
def edges (g : Graph) : List Edge := g.nodes.toList.flatMap Node.edges

/-- Control can come to a block by one edge at most, and never by an exception. -/
structure TreeShaped (g : Graph) : Prop where
  normal : ∀ edge ∈ g.edges, edge.kind = .normal
  /-- No edge leads back to the first block. -/
  rooted : ∀ edge ∈ g.edges, edge.target ≠ entry
  /-- No two edges lead to the same block. -/
  one_way_in : (g.edges.map Edge.target).Nodup

instance (g : Graph) : Decidable g.TreeShaped :=
  decidable_of_iff
    ((∀ edge ∈ g.edges, edge.kind = .normal) ∧ (∀ edge ∈ g.edges, edge.target ≠ entry) ∧
      (g.edges.map Edge.target).Nodup)
    ⟨fun ⟨h₁, h₂, h₃⟩ => ⟨h₁, h₂, h₃⟩, fun ⟨h₁, h₂, h₃⟩ => ⟨h₁, h₂, h₃⟩⟩

theorem mem_edges_of_mem_successors {g : Graph} {id : BlockId} {edge : Edge}
    (h : edge ∈ g.successors id) : edge ∈ g.edges := by
  obtain ⟨node, hnode, hedge⟩ := exists_node_of_mem_successors h
  exact List.mem_flatMap.mpr ⟨node, Array.mem_toList_iff.mpr (Array.mem_of_getElem? hnode), hedge⟩

theorem TreeShaped.target_ne {g : Graph} (h : g.TreeShaped) {id₁ id₂ : BlockId}
    {edge₁ edge₂ : Edge} (hlt : id₁ < id₂) (h₁ : edge₁ ∈ g.successors id₁)
    (h₂ : edge₂ ∈ g.successors id₂) : edge₁.target ≠ edge₂.target := by
  obtain ⟨node₁, hnode₁, h₁⟩ := exists_node_of_mem_successors h₁
  obtain ⟨node₂, hnode₂, h₂⟩ := exists_node_of_mem_successors h₂
  obtain ⟨hlt₁, rfl⟩ := Array.getElem?_eq_some_iff.mp hnode₁
  obtain ⟨hlt₂, rfl⟩ := Array.getElem?_eq_some_iff.mp hnode₂
  have hnodup := h.one_way_in
  rw [edges, List.map_flatMap, List.nodup_flatMap] at hnodup
  have hapart := List.pairwise_iff_getElem.mp hnodup.2 id₁ id₂ hlt₁ hlt₂ hlt
  intro heq
  exact hapart (List.mem_map_of_mem h₁) (heq ▸ List.mem_map_of_mem h₂)

/-- A block has one block before it at most. -/
theorem TreeShaped.source_unique {g : Graph} (h : g.TreeShaped) {id₁ id₂ : BlockId}
    {edge₁ edge₂ : Edge} (h₁ : edge₁ ∈ g.successors id₁) (h₂ : edge₂ ∈ g.successors id₂)
    (heq : edge₁.target = edge₂.target) : id₁ = id₂ := by
  rcases Nat.lt_trichotomy id₁ id₂ with hlt | hsame | hgt
  · exact absurd heq (h.target_ne hlt h₁ h₂)
  · exact hsame
  · exact absurd heq.symm (h.target_ne hgt h₂ h₁)

/-! ## Trails -/

/-- A way from the first block to another one: the blocks that control passes before it. -/
inductive Trail (g : Graph) : List BlockId → BlockId → Prop
  | entry : Trail g [] entry
  | along {before : List BlockId} {id : BlockId} {edge : Edge} :
      Trail g before id → edge ∈ g.successors id → Trail g (before ++ [id]) edge.target

theorem Trail.reachable {g : Graph} {before : List BlockId} {id : BlockId}
    (h : g.Trail before id) : g.Reachable id := by
  induction h with
  | entry => exact .entry
  | along _ hedge ih => exact ih.along hedge

theorem Reachable.exists_trail {g : Graph} {id : BlockId} (h : g.Reachable id) :
    ∃ before, g.Trail before id := by
  induction h with
  | entry => exact ⟨[], .entry⟩
  | along _ hedge ih =>
    obtain ⟨before, htrail⟩ := ih
    exact ⟨_, htrail.along hedge⟩

theorem TreeShaped.trail_unique {g : Graph} (h : g.TreeShaped) {before before' : List BlockId}
    {id : BlockId} (htrail : g.Trail before id) (htrail' : g.Trail before' id) :
    before = before' := by
  induction htrail generalizing before' with
  | entry =>
    generalize hid : entry = id at htrail'
    cases htrail' with
    | entry => rfl
    | along _ hedge => exact absurd hid.symm (h.rooted _ (mem_edges_of_mem_successors hedge))
  | @along before id edge _ hedge ih =>
    generalize hid : edge.target = id' at htrail'
    cases htrail' with
    | entry => exact absurd hid (h.rooted _ (mem_edges_of_mem_successors hedge))
    | along htrail' hedge' =>
      have hsource := h.source_unique hedge hedge' hid
      subst hsource
      rw [ih htrail']

/-! ## Walks -/

/-- The instructions of some blocks in a row, each block from its start to its end. -/
def code (g : Graph) (instructions : List Instruction) (ids : List BlockId) : List Instruction :=
  ids.flatMap fun id =>
    match g.block? id with
    | some b => b.slice instructions
    | none => []

/-- The instructions of some blocks in a row, executed one after the other. -/
def walk (g : Graph) (instructions : List Instruction) (entry : Frame) (ids : List BlockId) :
    Replay :=
  Replay.run entry (g.code instructions ids)

section Walks

variable {g : Graph} {instructions : List Instruction} {entry : Frame} {ids : List BlockId}
  {id : BlockId} {b : Block}

theorem code_concat (hb : g.block? id = some b) :
    g.code instructions (ids ++ [id]) = g.code instructions ids ++ b.slice instructions := by
  simp [code, hb]

theorem fault_walk_concat (hb : g.block? id = some b) :
    (g.walk instructions entry (ids ++ [id])).fault = none ↔
      (g.walk instructions entry ids).fault = none ∧
        (Replay.run (g.walk instructions entry ids).exit (b.slice instructions)).fault = none := by
  unfold walk
  rw [code_concat hb, Replay.fault_run_append]

theorem exit_walk_concat (hb : g.block? id = some b)
    (h : (g.walk instructions entry ids).fault = none) :
    (g.walk instructions entry (ids ++ [id])).exit
      = (Replay.run (g.walk instructions entry ids).exit (b.slice instructions)).exit := by
  unfold walk at h ⊢
  rw [code_concat hb, Replay.run_append h]

/-- The last steps of a walk are those of its last block. -/
theorem steps_walk_concat (hb : g.block? id = some b)
    (h : (g.walk instructions entry ids).fault = none) (k : Nat) :
    (g.walk instructions entry (ids ++ [id])).steps[(g.code instructions ids).length + k]?
      = (Replay.run (g.walk instructions entry ids).exit (b.slice instructions)).steps[k]? := by
  unfold walk at h ⊢
  rw [code_concat hb, Replay.run_append h, ← Replay.length_run_steps h,
    List.getElem?_append_right (Nat.le_add_right _ _), Nat.add_sub_cancel_left]

end Walks

end Graph

end SymbolicFrames
