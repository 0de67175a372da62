-- What the replay of a block is: its instructions executed one after the other, each from
-- where the one before it left off. What leaves the block, and what is left of its frames
-- once they are recorded.
import SymbolicFrames.Analysis.Frames
import SymbolicFrames.Proofs.Execution
import SymbolicFrames.Proofs.Graphs

namespace SymbolicFrames

namespace Replay

/-! ## Executing one after the other -/

theorem run_cons_of_ok {f g : Frame} {i : Instruction} (h : f.execute i = .ok g)
    (rest : List Instruction) :
    run f (i :: rest) = { run g rest with steps := ⟨f, g⟩ :: (run g rest).steps } := by
  simp [run, h]

theorem run_cons_of_error {f : Frame} {i : Instruction} {fault : Fault}
    (h : f.execute i = .error fault) (rest : List Instruction) :
    run f (i :: rest) = { steps := [], exit := f, fault := some (i, fault) } := by
  simp [run, h]

/-- Two executions that got equally far, with related frames all along. -/
structure Related (R : Frame → Frame → Prop) (r s : Replay) : Prop where
  steps : List.Forall₂ (fun a b : Step => R a.before b.before ∧ R a.after b.after) r.steps s.steps
  exit : R r.exit s.exit
  fault_eq : r.fault = s.fault

/-- Frames that no single instruction tells apart, no instructions in a row tell apart. -/
theorem related_run {R : Frame → Frame → Prop}
    (hexecute : ∀ {f g}, R f g → ∀ i, Agree R (f.execute i) (g.execute i)) {f g : Frame}
    (h : R f g) (instructions : List Instruction) :
    (run f instructions).Related R (run g instructions) := by
  induction instructions generalizing f g with
  | nil => exact ⟨.nil, h, rfl⟩
  | cons i rest ih =>
    rcases (hexecute h i).cases with ⟨fault, hf, hg⟩ | ⟨f', g', hf, hg, h'⟩
    · rw [run_cons_of_error hf, run_cons_of_error hg]
      exact ⟨.nil, h, rfl⟩
    · rw [run_cons_of_ok hf, run_cons_of_ok hg]
      obtain ⟨hsteps, hexit, hfault⟩ := ih h'
      exact ⟨.cons ⟨h, h'⟩ hsteps, hexit, hfault⟩

/-- Each step executes its own instruction. -/
theorem run_executes {f : Frame} {instructions : List Instruction} {k : Nat} {s : Step}
    (h : (run f instructions).steps[k]? = some s) :
    ∃ i, instructions[k]? = some i ∧ s.before.execute i = .ok s.after := by
  induction instructions generalizing f k with
  | nil => simp [run] at h
  | cons i rest ih =>
    rcases hexec : f.execute i with fault | g
    · simp [run_cons_of_error hexec] at h
    · simp only [run_cons_of_ok hexec] at h
      cases k with
      | zero =>
        simp only [List.getElem?_cons_zero, Option.some.injEq] at h
        exact ⟨i, rfl, h ▸ hexec⟩
      | succ k =>
        simp only [List.getElem?_cons_succ] at h ⊢
        exact ih h

theorem run_first {f : Frame} {instructions : List Instruction} {s : Step}
    (h : (run f instructions).steps[0]? = some s) : s.before = f := by
  cases instructions with
  | nil => simp [run] at h
  | cons i rest =>
    rcases hexec : f.execute i with fault | g
    · simp [run_cons_of_error hexec] at h
    · simp only [run_cons_of_ok hexec, List.getElem?_cons_zero, Option.some.injEq] at h
      rw [← h]

/-- Each step starts where the one before it ended. -/
theorem run_consecutive {f : Frame} {instructions : List Instruction} {k : Nat} {s t : Step}
    (hs : (run f instructions).steps[k]? = some s)
    (ht : (run f instructions).steps[k + 1]? = some t) : t.before = s.after := by
  induction instructions generalizing f k with
  | nil => simp [run] at hs
  | cons i rest ih =>
    rcases hexec : f.execute i with fault | g
    · simp [run_cons_of_error hexec] at hs
    · simp only [run_cons_of_ok hexec, List.getElem?_cons_succ] at hs ht
      cases k with
      | zero =>
        simp only [List.getElem?_cons_zero, Option.some.injEq] at hs
        rw [run_first ht, ← hs]
      | succ k => exact ih hs ht

/-- The last step ends where the block ends. -/
theorem run_last {f : Frame} {instructions : List Instruction} {k : Nat} {s : Step}
    (hs : (run f instructions).steps[k]? = some s)
    (hk : k + 1 = (run f instructions).steps.length) :
    (run f instructions).exit = s.after := by
  induction instructions generalizing f k with
  | nil => simp [run] at hs
  | cons i rest ih =>
    rcases hexec : f.execute i with fault | g
    · simp [run_cons_of_error hexec] at hs
    · simp only [run_cons_of_ok hexec, List.length_cons, Nat.add_right_cancel_iff] at hs hk ⊢
      cases k with
      | zero =>
        simp only [List.getElem?_cons_zero, Option.some.injEq] at hs
        have hnil : (run g rest).steps = [] := List.length_eq_zero_iff.mp hk.symm
        rw [← hs]
        cases rest with
        | nil => rfl
        | cons j rest =>
          rcases hnext : g.execute j with fault | h
          · simp [run_cons_of_error hnext]
          · simp [run_cons_of_ok hnext] at hnil
      | succ k =>
        simp only [List.getElem?_cons_succ] at hs
        exact ih hs hk

theorem length_run_steps {f : Frame} {instructions : List Instruction}
    (h : (run f instructions).fault = none) :
    (run f instructions).steps.length = instructions.length := by
  induction instructions generalizing f with
  | nil => rfl
  | cons i rest ih =>
    rcases hexec : f.execute i with fault | g
    · simp [run_cons_of_error hexec] at h
    · simp only [run_cons_of_ok hexec] at h ⊢
      simp [ih h]

/-- A replay stops at an instruction that cannot be executed on the frame it got to. -/
theorem run_fault {f : Frame} {instructions : List Instruction} {i : Instruction}
    {fault : Fault} (h : (run f instructions).fault = some (i, fault)) :
    instructions[(run f instructions).steps.length]? = some i ∧
      (run f instructions).exit.execute i = .error fault := by
  induction instructions generalizing f with
  | nil => cases h
  | cons j rest ih =>
    rcases hexec : f.execute j with fault' | g
    · rw [run_cons_of_error hexec] at h ⊢
      cases h
      exact ⟨rfl, hexec⟩
    · rw [run_cons_of_ok hexec] at h ⊢
      exact ih h

/-- Instructions in a row are executed without a fault exactly if the first ones are, and then
the others from where they end. -/
theorem fault_run_append {f : Frame} {first others : List Instruction} :
    (run f (first ++ others)).fault = none ↔
      (run f first).fault = none ∧ (run (run f first).exit others).fault = none := by
  induction first generalizing f with
  | nil => simp [run]
  | cons i rest ih =>
    rcases hexec : f.execute i with fault | g
    · simp [run_cons_of_error hexec]
    · rw [List.cons_append, run_cons_of_ok hexec, run_cons_of_ok hexec]
      exact ih

theorem run_append {f : Frame} {first : List Instruction} (h : (run f first).fault = none)
    (others : List Instruction) :
    run f (first ++ others) =
      { run (run f first).exit others with
        steps := (run f first).steps ++ (run (run f first).exit others).steps } := by
  induction first generalizing f with
  | nil => simp [run]
  | cons i rest ih =>
    rcases hexec : f.execute i with fault | g
    · simp [run_cons_of_error hexec] at h
    · rw [run_cons_of_ok hexec] at h ⊢
      rw [List.cons_append, run_cons_of_ok hexec, ih h]
      rfl

/-- What every instruction keeps holds of every frame of the block. -/
theorem run_forall {P : Frame → Prop} (hkeeps : ∀ {f i g}, P f → f.execute i = .ok g → P g)
    {f : Frame} {instructions : List Instruction} (hf : P f) :
    ∀ g ∈ (run f instructions).exposed, P g := by
  induction instructions generalizing f with
  | nil => simpa [run, exposed] using hf
  | cons i rest ih =>
    rcases hexec : f.execute i with fault | g
    · simpa [run_cons_of_error hexec, exposed] using hf
    · intro h hh
      simp only [run_cons_of_ok hexec, exposed, List.map_cons, List.cons_append,
        List.mem_cons] at hh
      rcases hh with rfl | hh
      · exact hf
      · exact ih (hkeeps hf hexec) h hh

/-! ## What leaves the block -/

theorem exit_mem_exposed (r : Replay) : r.exit ∈ r.exposed := by
  simp [exposed]

/-- A frame that leaves the block goes to a handler, from any point of the block, or to a
successor, from its end. -/
theorem mem_deliveries_iff {defaultException : ClassName} {edges : List Edge} {r : Replay}
    {d : Delivery} :
    d ∈ r.deliveries defaultException edges ↔
      (∃ edge ∈ edges, ∃ caught, edge.kind = .exception caught ∧ ∃ f ∈ r.exposed,
        d = ⟨edge.target, f.handler (.object (caught.getD defaultException))⟩) ∨
      (r.fault = none ∧ ∃ edge ∈ edges, edge.kind = .normal ∧ d = ⟨edge.target, r.exit⟩) := by
  unfold deliveries
  rw [List.mem_append]
  apply or_congr
  · simp only [List.mem_flatMap, toHandlers, List.mem_filterMap]
    constructor
    · rintro ⟨f, hf, edge, hedge, heq⟩
      cases hkind : edge.kind with
      | normal => simp [hkind] at heq
      | exception caught =>
        simp only [hkind, Option.some.injEq] at heq
        exact ⟨edge, hedge, caught, hkind, f, hf, heq.symm⟩
    · rintro ⟨edge, hedge, caught, hkind, f, hf, rfl⟩
      exact ⟨f, hf, edge, hedge, by simp [hkind]⟩
  · cases hfault : r.fault with
    | none =>
      simp only [Option.isNone_none, if_true, toSuccessors, List.mem_filterMap, true_and]
      constructor
      · rintro ⟨edge, hedge, heq⟩
        split at heq
        · rename_i hkind
          simp only [Option.some.injEq] at heq
          exact ⟨edge, hedge, hkind, heq.symm⟩
        · contradiction
      · rintro ⟨edge, hedge, hkind, rfl⟩
        exact ⟨edge, hedge, by simp [hkind]⟩
    | some fault => simp

end Replay

/-! ## Records -/

namespace Frames

theorem step?_ofSize (n : Nat) (i : Index) : (ofSize n).step? i = none := by
  simp only [step?, ofSize, Array.getElem?_replicate]
  split <;> rfl

@[simp]
theorem size_record (frames : Frames) (start : Index) (steps : List Step) :
    (frames.record start steps).size = frames.size := by
  induction steps generalizing frames start with
  | nil => rfl
  | cons s rest ih =>
    rw [record, ih]
    simp [size]

theorem step?_record_outside {frames : Frames} {start i : Index} {steps : List Step}
    (h : i < start ∨ start + steps.length ≤ i) :
    (frames.record start steps).step? i = frames.step? i := by
  induction steps generalizing frames start with
  | nil => rfl
  | cons s rest ih =>
    simp only [List.length_cons] at h
    have hi : i < start + 1 ∨ start + 1 + rest.length ≤ i := by lia
    have hne : start ≠ i := by lia
    rw [record, ih hi]
    simp [step?, hne]

theorem step?_record_inside {frames : Frames} {start : Index} {steps : List Step} {k : Nat}
    (hsize : start + steps.length ≤ frames.size) (hk : k < steps.length) :
    (frames.record start steps).step? (start + k) = steps[k]? := by
  induction steps generalizing frames start k with
  | nil => simp at hk
  | cons s rest ih =>
    simp only [List.length_cons] at hsize hk
    rw [record]
    cases k with
    | zero =>
      have hlt : start < frames.steps.size := by
        unfold size at hsize
        lia
      rw [step?_record_outside (Or.inl (by lia))]
      simp [step?, hlt]
    | succ k =>
      have hrest : start + 1 + rest.length
          ≤ (⟨frames.steps.setIfInBounds start (some s)⟩ : Frames).size := by
        simp only [size, Array.size_setIfInBounds] at hsize ⊢
        lia
      rw [List.getElem?_cons_succ, ← ih hrest (Nat.lt_of_succ_lt_succ hk)]
      congr 1
      lia

end Frames

/-! ## Slices -/

namespace Block

theorem length_slice {b : Block} {instructions : List Instruction}
    (h : b.stop ≤ instructions.length) : (b.slice instructions).length = b.size := by
  simp only [slice, size, List.length_take, List.length_drop]
  lia

theorem getElem?_slice {b : Block} {instructions : List Instruction} {k : Nat}
    (h : k < b.size) : (b.slice instructions)[k]? = instructions[b.start + k]? := by
  simp [slice, List.getElem?_drop, h]

end Block

end SymbolicFrames
