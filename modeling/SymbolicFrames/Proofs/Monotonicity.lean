-- What an instruction makes of a frame that says more than another. Frames are ordered slot by
-- slot, and a slot that says more takes as much room. Main statement: every instruction fails on
-- two such frames with the same fault, or leads to two such frames again, and so do
-- instructions in a row. No literal comes out where less is known.
import SymbolicFrames.Proofs.Refinement
import SymbolicFrames.Proofs.Replays

namespace SymbolicFrames

/-! ## The order -/

/-- The similarity of frames of which the second says less in the locals and on the stack
alike. A local that is left of values that disagree still tells their width here. -/
def slotwise : Similarity where
  operand := Value.Refines
  inLocal := Value.Refines
  operand_refl := Value.refines_self
  inLocal_of_operand := id
  width_eq := Value.Refines.width_eq
  overwritten := Value.Refines.overwritten
  increment := fun amount h => Value.increment_refines amount h.eq_or_no_literal
  unary := Value.unary_refines
  binary := Value.binary_refines

/-- Frames of one shape with one limit, the first of which says at least as much in every
slot. -/
def Frame.Below (f g : Frame) : Prop := slotwise.Similar f g

structure Step.Below (s t : Step) : Prop where
  before : s.before.Below t.before
  after : s.after.Below t.after

/-! ## One instruction -/

/-- What is loaded from a local may be pushed as it is: the order is one for both. -/
theorem Frame.Below.execute {f g : Frame} (h : f.Below g) (i : Instruction) :
    Agree Frame.Below (f.execute i) (g.execute i) :=
  Similarity.execute_of_uniform id h i

/-! ## Instructions in a row -/

/-- Two executions that got equally far, each step of the first saying at least as much. -/
structure Replay.Below (r s : Replay) : Prop where
  steps : List.Forall₂ Step.Below r.steps s.steps
  exit : r.exit.Below s.exit
  fault_eq : r.fault = s.fault

theorem Replay.below_run {f g : Frame} (h : f.Below g) (instructions : List Instruction) :
    (Replay.run f instructions).Below (Replay.run g instructions) := by
  obtain ⟨hsteps, hexit, hfault⟩ :=
    Replay.related_run (fun hbelow i => Frame.Below.execute hbelow i) h instructions
  exact ⟨hsteps.imp fun _ _ hstep => ⟨hstep.1, hstep.2⟩, hexit, hfault⟩

/-- Execution is monotone. On two frames in order, an instruction fails with the same fault or
leads to two frames in order. Instructions in a row get equally far on both, with frames in
order all along. -/
theorem execution_is_monotone {f g : Frame} (h : f.Below g) :
    (∀ i, (∃ fault, f.execute i = .error fault ∧ g.execute i = .error fault) ∨
      ∃ f' g', f.execute i = .ok f' ∧ g.execute i = .ok g' ∧ f'.Below g') ∧
    ∀ instructions, (Replay.run f instructions).Below (Replay.run g instructions) :=
  ⟨fun i => (h.execute i).cases, Replay.below_run h⟩

/-! ## A sum -/

/-- Two numbers to be added, the upper of them on top of the stack. -/
def summands (upper : Value) : Frame :=
  { locals := [], stack := [upper, .int (some 3)], maxStack := 2 }

/-- With both numbers known the sum is known. With one of them unknown it is any number. -/
theorem known_sum_is_below_unknown_sum :
    (summands (.int (some 2))).Below (summands (.int none)) ∧
      (summands (.int (some 2))).execute (.binary (.arith .add .int))
        = .ok ⟨[], [.int (some 5)], 2⟩ ∧
      (summands (.int none)).execute (.binary (.arith .add .int)) = .ok ⟨[], [.int none], 2⟩ ∧
      (⟨[], [.int (some 5)], 2⟩ : Frame).Below ⟨[], [.int none], 2⟩ := by
  have hbelow : (summands (.int (some 2))).Below (summands (.int none)) :=
    ⟨.nil, .cons (Value.int_refines _) (.cons (Value.refines_self _) .nil), rfl⟩
  have hknown : (summands (.int (some 2))).execute (.binary (.arith .add .int))
      = .ok ⟨[], [.int (some 5)], 2⟩ := by decide
  have hunknown : (summands (.int none)).execute (.binary (.arith .add .int))
      = .ok ⟨[], [.int none], 2⟩ := by decide
  refine ⟨hbelow, hknown, hunknown, ?_⟩
  rcases (execution_is_monotone hbelow).1 (.binary (.arith .add .int)) with
    ⟨fault, hfault, -⟩ | ⟨f', g', hf, hg, hresult⟩
  · rw [hknown] at hfault
    cases hfault
  · rw [hknown] at hf
    rw [hunknown] at hg
    cases hf
    cases hg
    exact hresult

end SymbolicFrames
