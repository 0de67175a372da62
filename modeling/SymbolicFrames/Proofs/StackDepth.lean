-- How deep the operand stack gets. Every push is checked against the limit of the method, but
-- the exception with which a handler is entered is put on the stack without a check. Main
-- statement: the stack is deeper than the limit only if the limit is zero, by one slot, and then
-- exactly if there is an exception to catch within the reach of control.
import SymbolicFrames.Proofs.Reachability

namespace SymbolicFrames

namespace Frame

variable {f g : Frame} {limit slots : Nat}

/-- The frame has this limit, and no more than so many slots are on its stack. -/
structure Within (limit slots : Nat) (f : Frame) : Prop where
  maxStack_eq : f.maxStack = limit
  depth_le : f.depth ≤ slots

theorem Within.setLocal (hf : f.Within limit slots) {slot : Slot} {v : Value}
    (h : f.setLocal slot v = .ok g) : g.Within limit slots := by
  obtain ⟨-, rfl⟩ := setLocal_eq_ok h
  exact ⟨hf.maxStack_eq, hf.depth_le⟩

/-- A push that succeeds leaves the stack within the limit, however deep it was before. -/
theorem Within.push (hle : limit ≤ slots) (hf : f.Within limit slots) {v : Value}
    (h : f.push v = .ok g) : g.Within limit slots := by
  obtain ⟨hroom, rfl⟩ := push_eq_ok h
  refine ⟨hf.maxStack_eq, ?_⟩
  rw [hf.maxStack_eq] at hroom
  unfold depth at hroom ⊢
  rw [total_cons]
  omega

theorem Within.dropped (hf : f.Within limit slots) (n : Nat) :
    Within limit slots { f with stack := f.stack.drop n } :=
  ⟨hf.maxStack_eq, Nat.le_trans (total_drop_le f.stack n) hf.depth_le⟩

theorem kept_within (hle : limit ≤ slots) : Kept (Within limit slots) where
  dropped := fun n hf => hf.dropped n
  pushed := fun hf hpush => hf.push hle hpush
  stored := fun hf hset => hf.setLocal hset

theorem Within.merge (hf : f.Within limit slots) {merged : Frame} {changed : Bool}
    (h : f.merge g = .ok (merged, changed)) : merged.Within limit slots := by
  obtain ⟨-, -, rfl, -⟩ := merge_eq_ok_iff.mp h
  exact ⟨hf.maxStack_eq, Nat.le_trans (total_width_zipWith_merge_le f.stack g.stack) hf.depth_le⟩

end Frame

namespace Problem

variable {problem : Problem}

/-- The stack stays within any number of slots that the limit does not exceed and that leaves
room for an exception, if one can be caught. -/
theorem upholds_within {slots : Nat} (hle : problem.method.maxStack ≤ slots)
    (hroom : ∀ {id edge caught}, problem.graph.Reachable id →
      edge ∈ problem.graph.successors id → edge.kind = .exception caught → 0 < slots) :
    problem.Upholds (Frame.Within problem.method.maxStack slots) where
  entered := by
    intro f hf
    refine ⟨(Frame.fits_entry hf).maxStack_eq, ?_⟩
    unfold Frame.depth
    rw [Frame.stack_entry hf]
    exact Nat.zero_le slots
  kept := Frame.kept_within hle
  caught := fun hid hedge hkind hf => ⟨hf.maxStack_eq, hroom hid hedge hkind⟩
  joined := fun hf _ hmerge => hf.merge hmerge

/-- A handler within the reach of control is entered with a value on the stack. -/
theorem Finished.handler_depth_pos {entry : Frame} {q : Progress} (h : problem.Finished entry q)
    {id : BlockId} {edge : Edge} {caught : Option ClassName} (hid : problem.graph.Reachable id)
    (hedge : edge ∈ problem.graph.successors id) (hkind : edge.kind = .exception caught) :
    ∃ i f, q.frames.before? i = some f ∧ 0 < f.depth := by
  obtain ⟨node, _, hnode, _⟩ := h.reached hid
  have hb := Graph.block?_eq_some_iff.mpr ⟨node, hnode, rfl⟩
  obtain ⟨handler, g, -, hg, -, f, -, habsorbs⟩ := h.handled hid hb hedge hkind
  have hlength : g.stack.length = 1 := (Frame.absorbs_iff.mp habsorbs).2.length_eq
  refine ⟨handler.start, g, hg, ?_⟩
  have hdepth := g.length_stack_le_depth
  omega

end Problem

/-- The frames that an analysis records exceed the limit of the stack by one slot at most. None
does exactly if the limit is not zero or nothing is ever caught. -/
theorem stack_keeps_its_limit_iff_there_is_room_for_an_exception {settings : Settings}
    {method : Method} {graph : Graph} {frames : Frames}
    (h : (analyze settings method graph).result = .ok frames) :
    (∀ i f, frames.before? i = some f ∨ frames.after? i = some f →
      f.depth ≤ max method.maxStack 1) ∧
    ((∀ i f, frames.before? i = some f ∨ frames.after? i = some f →
        f.depth ≤ method.maxStack) ↔
      0 < method.maxStack ∨ ∀ id edge, graph.Reachable id → edge ∈ graph.successors id →
        edge.kind = .normal) := by
  let problem : Problem := ⟨settings, method, graph⟩
  have houtcome : problem.outcome.result = .ok frames := analyze_eq_ok_iff.mp h
  refine ⟨?_, ?_, ?_⟩
  · intro i f hf
    have hupheld : problem.Upholds (Frame.Within method.maxStack (max method.maxStack 1)) :=
      Problem.upholds_within (Nat.le_max_left _ _)
        fun _ _ _ => Nat.lt_of_lt_of_le Nat.one_pos (Nat.le_max_right _ _)
    exact (hupheld.recorded houtcome hf).depth_le
  · intro hwithin
    by_contra hroom
    simp only [not_or, not_forall] at hroom
    obtain ⟨hzero, id, edge, hid, hedge, hkind⟩ := hroom
    obtain ⟨entry, q, hfinished, rfl⟩ := Problem.finished_of_outcome houtcome
    cases hcaught : edge.kind with
    | normal => exact hkind hcaught
    | exception caught =>
      obtain ⟨i, f, hf, hpos⟩ := hfinished.handler_depth_pos hid hedge hcaught
      have hdepth := hwithin i f (Or.inl hf)
      omega
  · intro hroom i f hf
    have hupheld : problem.Upholds (Frame.Within method.maxStack method.maxStack) := by
      apply Problem.upholds_within (Nat.le_refl _)
      intro id edge caught hid hedge hkind
      rcases hroom with hpos | hnormal
      · exact hpos
      · rw [hnormal id edge hid hedge] at hkind
        cases hkind
    exact (hupheld.recorded houtcome hf).depth_le

/-- One slot is room enough for what the handler of the countdown catches. -/
theorem countdown_keeps_its_limit :
    (analyze .default countdown countdownGraph).result = .ok countdownFrames ∧
      ∀ i f, countdownFrames.before? i = some f ∨ countdownFrames.after? i = some f →
        f.depth ≤ countdown.maxStack :=
  ⟨analyze_countdown,
    (stack_keeps_its_limit_iff_there_is_room_for_an_exception analyze_countdown).2.mpr
      (Or.inl (by decide))⟩

/-! ## A handler without room -/

/-- No value is ever to be on its stack, but its first instruction has a handler. -/
def stackless : Method where
  owner := .object
  name := ⟨"stackless", rfl⟩
  type := ⟨[], none⟩
  flags := ⟨AccessFlag.static.mask⟩
  maxLocals := 0
  maxStack := 0
  instructions := [.nop, .returnVoid]

def stacklessGraph : Graph where
  nodes := #[⟨⟨0, 1⟩, [⟨1, .exception none⟩]⟩, ⟨⟨1, 2⟩, []⟩]
  dangling := []

def stacklessFrames : Frames where
  steps :=
    let frame (stack : List Value) : Frame := { locals := [], stack, maxStack := 0 }
    #[some ⟨frame [], frame []⟩,
      some ⟨frame [.object .throwable], frame [.object .throwable]⟩]

/-- The analysis succeeds, and the frame on entry to the handler has a value on its stack where
the limit is none. -/
theorem handler_exceeds_the_limit_of_its_method :
    (analyze .default stackless stacklessGraph).result = .ok stacklessFrames ∧
      ¬ ∀ i f, stacklessFrames.before? i = some f ∨ stacklessFrames.after? i = some f →
        f.depth ≤ stackless.maxStack := by
  have hresult : (analyze .default stackless stacklessGraph).result = .ok stacklessFrames :=
    result_analyze_of_runWithin 10 (Frame.empty 0 0) (by cbv) (by decide +kernel)
      (by decide +kernel)
  refine ⟨hresult, ?_⟩
  intro hwithin
  have hdepth : Frame.depth ⟨[], [.object .throwable], 0⟩ ≤ 0 := hwithin 1 _ (Or.inl rfl)
  contradiction

end SymbolicFrames
