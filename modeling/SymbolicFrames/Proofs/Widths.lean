-- What an instruction learns of a frame. It is the widths of the values and nothing else that
-- decide whether it fails, with what fault, and what shape the frame has afterwards. Main
-- statement: on two frames with the same widths every instruction fails with the same fault or
-- leads to two frames with the same widths, and so do instructions in a row.
import SymbolicFrames.Proofs.Replays

namespace SymbolicFrames

/-! ## Results -/

namespace Value

def SameWidth (v w : Value) : Prop := v.width = w.width

/-- An operation decides alone whether it has a result and how wide that is. -/
theorem unary_sameWidth (op : UnaryOp) (v w : Value) :
    Agree (Option.Rel SameWidth) (op.result v) (op.result w) := by
  cases op with
  | neg kind => exact .ok (.some (by cases kind <;> rfl))
  | convert conversion => exact .ok (.some (by cases conversion <;> rfl))
  | _ =>
    apply Agree.refl
    rintro (_ | u)
    · exact .none
    · exact .some rfl

theorem width_compareLiterals (l r : Value) : (compareLiterals l r).width = 1 := by
  unfold compareLiterals
  split
  · rfl
  · rfl

theorem width_arrayElement (array : Value) : (arrayElement array).width = 1 := by
  unfold arrayElement
  split
  · split
    · rfl
    · rfl
  · rfl

theorem binary_sameWidth (op : BinaryOp) (l l' r r' : Value) :
    Option.Rel SameWidth (op.result l r) (op.result l' r') := by
  cases op with
  | arith op kind => exact .some (by cases kind <;> rfl)
  | bits op kind => exact .some (by cases kind <;> rfl)
  | shift op kind => exact .some (by cases kind <;> rfl)
  | compare => exact .some ((width_compareLiterals l r).trans (width_compareLiterals l' r').symm)
  | arrayLoad kind =>
    cases kind with
    | ref => exact .some ((width_arrayElement l).trans (width_arrayElement l').symm)
    | _ => exact .some rfl
  | ifInts | ifRefs | putField => exact .none

theorem SameWidth.overwritten {v w : Value} (h : v.SameWidth w) :
    (if v.width = 2 then .uninitialized else v).SameWidth
      (if w.width = 2 then .uninitialized else w) := by
  rw [show v.width = w.width from h]
  split
  · rfl
  · exact h

end Value

/-- The similarity of frames whose values take the same room, whatever they are. -/
def equallyWide : Similarity where
  operand := Value.SameWidth
  inLocal := Value.SameWidth
  operand_refl := fun _ => rfl
  inLocal_of_operand := id
  width_eq := id
  overwritten := Value.SameWidth.overwritten
  increment := fun _ _ => rfl
  unary := fun op _ => Value.unary_sameWidth op _ _
  binary := fun op _ _ => Value.binary_sameWidth op _ _ _ _

/-! ## Frames -/

/-- Frames with one limit whose locals, and whose stacks, have the same widths one by one. -/
structure Frame.SameWidths (f g : Frame) : Prop where
  locals_eq : f.locals.map Value.width = g.locals.map Value.width
  stack_eq : f.stack.map Value.width = g.stack.map Value.width
  maxStack_eq : f.maxStack = g.maxStack

theorem forall₂_sameWidth_iff {vs ws : List Value} :
    List.Forall₂ Value.SameWidth vs ws ↔ vs.map Value.width = ws.map Value.width := by
  rw [← List.forall₂_eq_eq_eq, List.forall₂_map_left_iff, List.forall₂_map_right_iff]
  rfl

namespace Frame

theorem sameWidths_iff {f g : Frame} : f.SameWidths g ↔ equallyWide.Similar f g := by
  constructor
  · rintro ⟨hlocals, hstack, hmax⟩
    exact ⟨forall₂_sameWidth_iff.mpr hlocals, forall₂_sameWidth_iff.mpr hstack, hmax⟩
  · rintro ⟨hlocals, hstack, hmax⟩
    exact ⟨forall₂_sameWidth_iff.mp hlocals, forall₂_sameWidth_iff.mp hstack, hmax⟩

theorem SameWidths.execute {f g : Frame} (h : f.SameWidths g) (i : Instruction) :
    Agree SameWidths (f.execute i) (g.execute i) := by
  have hagree : Agree equallyWide.Similar (f.execute i) (g.execute i) :=
    Similarity.execute_of_uniform id (sameWidths_iff.mp h) i
  exact hagree.imp fun _ _ => sameWidths_iff.mpr

end Frame

/-- Faults and shapes depend on widths alone. On two frames with the same widths an instruction
fails with the same fault or leads to two frames with the same widths. Instructions in a row
get equally far on both, with the same widths all along. -/
theorem only_widths_decide_faults_and_shapes {f g : Frame} (h : f.SameWidths g) :
    (∀ i, (∃ fault, f.execute i = .error fault ∧ g.execute i = .error fault) ∨
      ∃ f' g', f.execute i = .ok f' ∧ g.execute i = .ok g' ∧ f'.SameWidths g') ∧
    ∀ instructions,
      (Replay.run f instructions).Related Frame.SameWidths (Replay.run g instructions) :=
  ⟨fun i => (h.execute i).cases, Replay.related_run (fun hwidths => hwidths.execute) h⟩

/-! ## A pair that is known and one that is not -/

def knownPair : Frame :=
  { locals := [.long (some 7), .uninitialized], stack := [.int (some 0)], maxStack := 1 }

def unknownPair : Frame :=
  { locals := [.wideTop, .null], stack := [.top], maxStack := 1 }

/-- The frames have not one value in common. Neither has room for its wide local on the stack,
and a store onto the second half takes the first half away in both. -/
theorem pairs_are_broken_up_alike :
    knownPair.SameWidths unknownPair ∧
      knownPair.execute (.load .long 0) = .error (.stackOverflow 1) ∧
      unknownPair.execute (.load .long 0) = .error (.stackOverflow 1) ∧
      ∃ f g, knownPair.execute (.store .int 1) = .ok f ∧
        unknownPair.execute (.store .int 1) = .ok g ∧ f.SameWidths g ∧
        f.locals = [.uninitialized, .int (some 0)] ∧ g.locals = [.uninitialized, .top] := by
  have hwidths : knownPair.SameWidths unknownPair := ⟨rfl, rfl, rfl⟩
  have hoverflow : knownPair.execute (.load .long 0) = .error (.stackOverflow 1) := rfl
  obtain ⟨hexecute, -⟩ := only_widths_decide_faults_and_shapes hwidths
  refine ⟨hwidths, hoverflow, ?_, ?_⟩
  · rcases hexecute (.load .long 0) with ⟨fault, hf, hg⟩ | ⟨f, g, hf, -⟩
    · rw [hoverflow] at hf
      rw [hg, hf]
    · rw [hoverflow] at hf
      cases hf
  · rcases hexecute (.store .int 1) with ⟨fault, hf, -⟩ | ⟨f, g, hf, hg, hafter⟩
    · cases hf
    · refine ⟨f, g, hf, hg, hafter, ?_, ?_⟩
      · cases hf
        rfl
      · cases hg
        rfl

end SymbolicFrames
