-- The shape of the frames of a method. All of them have its locals and its limit, and a stack
-- that is no deeper than the limit allows, save for a handler, which is entered with one value
-- on the stack whatever the limit. Main statement: what a block sends on has this shape, if the
-- frame on its entry has.
import SymbolicFrames.Proofs.Execution
import SymbolicFrames.Proofs.Runs

namespace SymbolicFrames

/-- The frame is one of the method, as far as its shape tells. -/
structure Frame.Fits (method : Method) (f : Frame) : Prop where
  length_locals : f.locals.length = method.maxLocals
  maxStack_eq : f.maxStack = method.maxStack
  depth_le : f.depth ≤ max method.maxStack 1

namespace Frame

variable {method : Method} {f g : Frame}

/-! ## Moves -/

theorem length_dropPairOnto (ls : List Value) (slot : Slot) :
    (dropPairOnto ls slot).length = ls.length := by
  unfold dropPairOnto
  split
  · rfl
  · split
    · split
      · exact List.length_set
      · rfl
    · rfl

theorem length_markPair (ls : List Value) (slot : Slot) (v : Value) :
    (markPair ls slot v).length = ls.length := by
  unfold markPair
  split
  · exact List.length_set
  · rfl

theorem Fits.setLocal (hf : f.Fits method) {slot : Slot} {v : Value}
    (hset : f.setLocal slot v = .ok g) : g.Fits method := by
  obtain ⟨-, rfl⟩ := setLocal_eq_ok hset
  refine ⟨?_, hf.maxStack_eq, hf.depth_le⟩
  rw [List.length_set, length_markPair, length_dropPairOnto, hf.length_locals]

theorem Fits.push (hf : f.Fits method) {v : Value} (hpush : f.push v = .ok g) :
    g.Fits method := by
  obtain ⟨hroom, rfl⟩ := push_eq_ok hpush
  refine ⟨hf.length_locals, hf.maxStack_eq, ?_⟩
  rw [hf.maxStack_eq] at hroom
  unfold depth at hroom ⊢
  rw [total_cons]
  omega

/-- Every value on the stack takes at least one slot. -/
theorem length_stack_le_depth (f : Frame) : f.stack.length ≤ f.depth := by
  unfold depth
  induction f.stack with
  | nil => exact Nat.le_refl 0
  | cons v vs ih =>
    have hv := v.width_pos
    rw [total_cons, List.length_cons]
    omega

theorem total_drop_le (vs : List Value) (n : Nat) :
    total Value.width (vs.drop n) ≤ total Value.width vs := by
  induction vs generalizing n with
  | nil => simp
  | cons v vs ih =>
    cases n with
    | zero => exact Nat.le_refl _
    | succ n =>
      rw [List.drop_succ_cons, total_cons]
      exact Nat.le_trans (ih n) (Nat.le_add_left _ _)

theorem Fits.dropped (hf : f.Fits method) (n : Nat) :
    Frame.Fits method { f with stack := f.stack.drop n } := by
  refine ⟨hf.length_locals, hf.maxStack_eq, Nat.le_trans ?_ hf.depth_le⟩
  exact total_drop_le f.stack n

theorem kept_fits (method : Method) : Kept (Fits method) where
  dropped := fun n hf => hf.dropped n
  pushed := fun hf hpush => hf.push hpush
  stored := fun hf hset => hf.setLocal hset

/-! ## Where frames come from -/

section Entry

variable {P : Frame → Prop}
  (hstored : ∀ {f g : Frame} {slot : Slot} {v : Value}, P f → f.setLocal slot v = .ok g → P g)

include hstored

theorem placeArgument_keeps {slot : Slot} {v : Value} (hf : P f)
    (h : f.placeArgument slot v = .ok g) : P g := by
  unfold placeArgument at h
  split at h
  · cases h
  · exact hstored hf h

theorem placeArguments_keeps {types : List FieldType} {slot : Slot} (hf : P f)
    (h : f.placeArguments slot types = .ok g) : P g := by
  induction types generalizing f slot with
  | nil =>
    cases h
    exact hf
  | cons t rest ih =>
    obtain ⟨placed, hplaced, hrest⟩ := bind_eq_ok h
    exact ih (placeArgument_keeps hstored hf hplaced) hrest

/-- The frame on entry comes from an empty one by stores alone. -/
theorem entry_keeps {receiver : Option ClassName} {type : MethodDescriptor}
    {maxLocals maxStack : Nat} (hempty : P (empty maxLocals maxStack))
    (h : entry receiver type maxLocals maxStack = .ok f) : P f := by
  unfold entry at h
  split at h
  · exact placeArguments_keeps hstored hempty h
  · obtain ⟨placed, hplaced, hrest⟩ := bind_eq_ok h
    exact placeArguments_keeps hstored (placeArgument_keeps hstored hempty hplaced) hrest

theorem entryFrame_keeps (hempty : P (empty method.maxLocals method.maxStack))
    (h : method.entryFrame = .ok f) : P f :=
  entry_keeps hstored hempty h

end Entry

theorem fits_empty (method : Method) : (empty method.maxLocals method.maxStack).Fits method := by
  refine ⟨by simp [empty], rfl, ?_⟩
  exact Nat.zero_le _

theorem fits_entry (h : method.entryFrame = .ok f) : f.Fits method :=
  entryFrame_keeps (fun hf hset => hf.setLocal hset) (fits_empty method) h

theorem stack_setLocal {slot : Slot} {v : Value} (h : f.setLocal slot v = .ok g) :
    g.stack = f.stack := by
  obtain ⟨-, rfl⟩ := setLocal_eq_ok h
  rfl

theorem stack_entry (h : method.entryFrame = .ok f) : f.stack = [] := by
  apply entryFrame_keeps _ _ h
  · intro f g slot v hf hset
    rw [stack_setLocal hset, hf]
  · rfl

/-- The one value on a handler's stack takes one slot, even where the limit leaves none. -/
theorem Fits.handler (hf : f.Fits method) (caught : ClassName) :
    (f.handler (.object caught)).Fits method := by
  refine ⟨hf.length_locals, hf.maxStack_eq, ?_⟩
  exact Nat.le_max_right _ _

theorem total_width_zipWith_merge_le (vs ws : List Value) :
    total Value.width (List.zipWith Value.merge vs ws) ≤ total Value.width vs := by
  induction vs generalizing ws with
  | nil => simp
  | cons v vs ih =>
    cases ws with
    | nil => simp
    | cons w ws =>
      rw [List.zipWith_cons_cons, total_cons, total_cons]
      exact Nat.add_le_add (Value.width_merge_le v w) (ih ws)

theorem Fits.merge (hf : f.Fits method) (hg : g.Fits method) {merged : Frame} {changed : Bool}
    (h : f.merge g = .ok (merged, changed)) : merged.Fits method := by
  obtain ⟨-, -, rfl, -⟩ := merge_eq_ok_iff.mp h
  refine ⟨?_, hf.maxStack_eq, ?_⟩
  · simp [join, hf.length_locals, hg.length_locals]
  · exact Nat.le_trans (total_width_zipWith_merge_le f.stack g.stack) hf.depth_le

end Frame

/-! ## Along a block -/

namespace Problem

variable {problem : Problem}

theorem replay_fits {b : Block} {f : Frame} (hf : f.Fits problem.method) :
    ∀ g ∈ (problem.replay b f).exposed, g.Fits problem.method :=
  Replay.run_forall (fun hg hexec => (Frame.kept_fits problem.method).execute hg hexec) hf

theorem sends_fit {node : Node} {f : Frame} (hf : f.Fits problem.method) :
    ∀ d ∈ problem.sends node f, d.frame.Fits problem.method := by
  intro d hd
  rcases Replay.mem_deliveries_iff.mp hd with ⟨_, _, caught, _, g, hg, rfl⟩ | ⟨_, _, _, _, rfl⟩
  · exact (replay_fits hf g hg).handler _
  · exact replay_fits hf _ (Replay.exit_mem_exposed _)

end Problem

end SymbolicFrames
