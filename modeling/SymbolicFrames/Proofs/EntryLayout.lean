-- The locals on entry to a method. The receiver and the arguments are put one after the other
-- into locals that hold nothing yet, a wide one with its mark behind it. Main statement: they fit
-- exactly if they are together no wider than the locals, then they lie there one next to the
-- other and nothing behind them, and else the first that finds no room is named by its slot.
import SymbolicFrames.Proofs.Faults
import SymbolicFrames.Proofs.SlotShuffles

namespace SymbolicFrames

/-! ## Layout -/

/-- What a value of the type fills its slots with. -/
def FieldType.slots (t : FieldType) : List Value :=
  .ofFieldType t :: if t = .base .long ∨ t = .base .double then [.continuation] else []

/-- The types of what a method is entered with, the receiver's first. -/
def MethodDescriptor.entered (type : MethodDescriptor) (receiver : Option ClassName) :
    List FieldType :=
  receiver.toList.map FieldType.object ++ type.parameters

namespace FieldType

theorem width_pos (t : FieldType) : 0 < t.width := by
  rw [← Value.width_ofFieldType]
  exact Value.width_pos _

/-- The mark of a wide value is what a local holds that has not been written yet. -/
theorem slots_eq (t : FieldType) :
    t.slots = .ofFieldType t :: List.replicate (t.width - 1) .uninitialized := by
  rcases t with base | ref
  · cases base <;> rfl
  · rfl

theorem length_slots (t : FieldType) : t.slots.length = t.width := by
  have := t.width_pos
  rw [slots_eq, List.length_cons, List.length_replicate]
  omega

/-- However wide it is, its last slot holds nothing wide. -/
theorem width_last_slot {t : FieldType} {v : Value} (h : t.slots[t.width - 1]? = some v) :
    v.width = 1 := by
  rw [slots_eq] at h
  rcases hwidth : t.width - 1 with _ | n
  · rw [hwidth] at h
    cases h
    have := t.width_pos
    rw [Value.width_ofFieldType]
    omega
  · rw [hwidth, List.getElem?_cons_succ, List.getElem?_replicate, if_pos (Nat.lt_succ_self n)] at h
    cases h
    rfl

/-- A value put into the first of so many empty slots leaves the rest of them empty. -/
theorem set_replicate_eq (t : FieldType) (rest : Nat) :
    (List.replicate (t.width + rest) Value.uninitialized).set 0 (.ofFieldType t) =
      t.slots ++ List.replicate rest .uninitialized := by
  obtain ⟨others, hwidth⟩ := Nat.exists_eq_succ_of_ne_zero (Nat.ne_of_gt t.width_pos)
  rw [slots_eq, hwidth, Nat.succ_add, List.replicate_succ, List.set_cons_zero, List.cons_append,
    Nat.succ_sub_one, List.replicate_append_replicate]

theorem length_flatMap_slots (types : List FieldType) :
    (types.flatMap slots).length = total width types := by
  induction types with
  | nil => rfl
  | cons t rest ih => rw [List.flatMap_cons, List.length_append, length_slots, ih, total_cons]

/-- Nothing that was placed is wide in the last slot that was filled. -/
theorem width_last_placed {types : List FieldType} {n : Nat} {v : Value}
    (hn : n + 1 = total width types) (h : (types.flatMap slots)[n]? = some v) : v.width = 1 := by
  rcases List.eq_nil_or_concat types with rfl | ⟨before, t, rfl⟩
  · cases hn
  · have hlast : n = total width before + (t.width - 1) := by
      have := t.width_pos
      rw [List.concat_eq_append, total_append, total_cons, total_nil] at hn
      omega
    have hbefore : (before.flatMap slots).length ≤ n := by
      rw [length_flatMap_slots]
      omega
    rw [List.concat_eq_append, List.flatMap_append, List.flatMap_singleton,
      List.getElem?_append_right hbefore, length_flatMap_slots, hlast,
      Nat.add_sub_cancel_left] at h
    exact width_last_slot h

end FieldType

/-! ## Placing -/

namespace Frame

variable {f g : Frame} {done : List FieldType} {free : Nat}

/-- Values of these types fill the first locals, and so many behind them hold nothing yet. -/
def Placed (f : Frame) (done : List FieldType) (free : Nat) : Prop :=
  f.locals = done.flatMap FieldType.slots ++ List.replicate free .uninitialized

theorem Placed.length_locals (h : f.Placed done free) :
    f.locals.length = total FieldType.width done + free := by
  rw [h, List.length_append, FieldType.length_flatMap_slots, List.length_replicate]

/-- A store behind what was placed breaks up nothing. -/
theorem Placed.dropPairOnto_eq (h : f.Placed done free) :
    dropPairOnto f.locals (total FieldType.width done) = f.locals := by
  rcases hwidth : total FieldType.width done with _ | n
  · rfl
  · rcases hv : f.locals[n]? with _ | v
    · exact dropPairOnto_of_none hv
    · have hfilled : n < (done.flatMap FieldType.slots).length := by
        rw [FieldType.length_flatMap_slots]
        omega
      have hnarrow : v.width = 1 := by
        rw [h, List.getElem?_append_left hfilled] at hv
        exact FieldType.width_last_placed hwidth.symm hv
      simp [dropPairOnto, hv, hnarrow]

/-- The mark that a store leaves there is there already. -/
theorem Placed.markPair_eq (h : f.Placed done free) (v : Value) :
    markPair f.locals (total FieldType.width done) v = f.locals := by
  unfold markPair
  split
  · rw [h, ← FieldType.length_flatMap_slots, List.set_append_right _ _ (Nat.le_succ _)]
    exact congrArg _ List.set_replicate_self
  · rfl

/-- One more value is placed if there is room for it. -/
theorem Placed.setLocal_eq (h : f.Placed done free) (t : FieldType) :
    f.setLocal (total FieldType.width done) (.ofFieldType t) =
      if free < t.width then .error (.invalidLocal (total FieldType.width done))
      else .ok { f with
        locals := (done ++ [t]).flatMap FieldType.slots
          ++ List.replicate (free - t.width) .uninitialized } := by
  have hfull : f.locals.length < total FieldType.width done + (Value.ofFieldType t).width ↔
      free < t.width := by
    rw [h.length_locals, Value.width_ofFieldType]
    omega
  rw [setLocal, h.dropPairOnto_eq, h.markPair_eq]
  by_cases hroom : free < t.width
  · rw [if_pos hroom, if_pos (hfull.mpr hroom)]
  · rw [if_neg hroom, if_neg (mt hfull.mp hroom)]
    obtain ⟨rest, rfl⟩ := Nat.exists_eq_add_of_le (Nat.le_of_not_lt hroom)
    have hset : f.locals.set (total FieldType.width done) (.ofFieldType t) =
        (done ++ [t]).flatMap FieldType.slots ++ List.replicate rest .uninitialized := by
      rw [h, ← FieldType.length_flatMap_slots, List.set_append_right _ _ (Nat.le_refl _),
        Nat.sub_self, FieldType.set_replicate_eq, List.flatMap_append, List.flatMap_singleton,
        List.append_assoc]
    rw [hset, Nat.add_sub_cancel_left]

/-- The first of these that no room is left for, behind what was placed. -/
structure Misfit (free : Nat) (types before : List FieldType) (t : FieldType)
    (after : List FieldType) : Prop where
  types_eq : types = before ++ t :: after
  fits : total FieldType.width before ≤ free
  too_wide : free < total FieldType.width before + t.width

theorem Misfit.cons {types before after : List FieldType} {t u : FieldType}
    (h : Misfit (free - u.width) types before t after) (hroom : u.width ≤ free) :
    Misfit free (u :: types) (u :: before) t after := by
  obtain ⟨rfl, hfits, hwide⟩ := h
  refine ⟨rfl, ?_, ?_⟩
  · rw [total_cons]
    omega
  · rw [total_cons]
    omega

/-- All of them are placed, or the first that does not fit is refused. -/
theorem Placed.placeArguments_cases (h : f.Placed done free)
    (hlast : total FieldType.width done + free ≤ lastSlot) (types : List FieldType) :
    (total FieldType.width types ≤ free ∧
      f.placeArguments (total FieldType.width done) types = .ok { f with
        locals := (done ++ types).flatMap FieldType.slots
          ++ List.replicate (free - total FieldType.width types) .uninitialized }) ∨
    ∃ before t after, Misfit free types before t after ∧
      f.placeArguments (total FieldType.width done) types =
        .error (.invalidLocal (total FieldType.width (done ++ before))) := by
  induction types generalizing f done free with
  | nil =>
    refine Or.inl ⟨Nat.zero_le _, ?_⟩
    rw [List.append_nil, total_nil, Nat.sub_zero, ← h]
    rfl
  | cons t rest ih =>
    have hplace : f.placeArgument (total FieldType.width done) (.ofFieldType t) =
        f.setLocal (total FieldType.width done) (.ofFieldType t) :=
      if_neg (Nat.not_lt_of_le (Nat.le_trans (Nat.le_add_right _ _) hlast))
    rw [placeArguments, hplace, h.setLocal_eq]
    by_cases hroom : free < t.width
    · refine Or.inr ⟨[], t, rest, ⟨rfl, Nat.zero_le _, by rw [total_nil]; omega⟩, ?_⟩
      rw [if_pos hroom, List.append_nil]
      rfl
    · rw [if_neg hroom]
      -- The rest is placed behind the value just placed, in what is left of the room.
      have hwidth : total FieldType.width (done ++ [t]) =
          total FieldType.width done + t.width := by
        rw [total_append, total_cons, total_nil, Nat.add_zero]
      let placed : Frame := { f with
        locals := (done ++ [t]).flatMap FieldType.slots
          ++ List.replicate (free - t.width) .uninitialized }
      have hplaced : placed.Placed (done ++ [t]) (free - t.width) := rfl
      rw [ok_bind, ← hwidth]
      rcases ih hplaced (by omega) with ⟨hfits, hok⟩ | ⟨before, u, after, hmisfit, herror⟩
      · refine Or.inl ⟨by rw [total_cons]; omega, hok.trans ?_⟩
        rw [List.append_assoc, total_cons, Nat.sub_sub]
        rfl
      · refine Or.inr ⟨t :: before, u, after, hmisfit.cons (Nat.le_of_not_lt hroom), ?_⟩
        rw [List.append_assoc] at herror
        exact herror

end Frame

/-! ## Entry -/

namespace MethodDescriptor

variable (type : MethodDescriptor) (receiver : Option ClassName)

/-- The locals on entry: the receiver, the arguments with the marks of the wide ones among them,
and nothing in what is left. -/
def entryLocals (maxLocals : Nat) : List Value :=
  receiver.toList.map Value.object ++ type.parameters.flatMap FieldType.slots
    ++ List.replicate (maxLocals - type.parameterWidth receiver.isSome) .uninitialized

theorem total_entered :
    total FieldType.width (type.entered receiver) = type.parameterWidth receiver.isSome := by
  cases receiver with
  | none => exact (Nat.zero_add _).symm
  | some name => rfl

theorem flatMap_slots_entered :
    (type.entered receiver).flatMap FieldType.slots =
      receiver.toList.map Value.object ++ type.parameters.flatMap FieldType.slots := by
  cases receiver with
  | none => rfl
  | some name => rfl

end MethodDescriptor

namespace Frame

variable (receiver : Option ClassName) (type : MethodDescriptor) (maxLocals maxStack : Nat)

/-- A receiver is placed like an argument of its class. -/
theorem entry_eq_placeArguments :
    entry receiver type maxLocals maxStack =
      (empty maxLocals maxStack).placeArguments 0 (type.entered receiver) := by
  cases receiver with
  | none => rfl
  | some name => rfl

theorem entry_cases (hlast : maxLocals ≤ lastSlot) :
    entry receiver type maxLocals maxStack =
      .ok { locals := type.entryLocals receiver maxLocals, stack := [], maxStack } ∨
    ∃ before t after, Misfit maxLocals (type.entered receiver) before t after ∧
      entry receiver type maxLocals maxStack =
        .error (.invalidLocal (total FieldType.width before)) := by
  have hempty : (empty maxLocals maxStack).Placed [] maxLocals := rfl
  rw [entry_eq_placeArguments]
  rcases hempty.placeArguments_cases (by rw [total_nil]; omega) (type.entered receiver) with
    ⟨-, hok⟩ | ⟨before, t, after, hmisfit, herror⟩
  · left
    rw [List.nil_append, type.flatMap_slots_entered, type.total_entered] at hok
    exact hok
  · exact Or.inr ⟨before, t, after, hmisfit, herror⟩

end Frame

/-- The locals on entry are laid out exactly. A method can be entered exactly if its receiver and
its arguments are no wider than its locals, of which there are no more than slots have numbers.
Then the stack is empty, and the locals hold the receiver, if there is one, and the arguments
one after the other, a mark behind each wide one and nothing behind the last. Else the first of
them that does not fit is refused, and its slot is named. -/
theorem entry_lays_out_its_arguments (receiver : Option ClassName) (type : MethodDescriptor)
    (maxLocals maxStack : Nat) (hlast : maxLocals ≤ Frame.lastSlot) :
    ((∃ f, Frame.entry receiver type maxLocals maxStack = .ok f) ↔
      type.parameterWidth receiver.isSome ≤ maxLocals) ∧
    (∀ f, Frame.entry receiver type maxLocals maxStack = .ok f →
      f = { locals := type.entryLocals receiver maxLocals, stack := [], maxStack }) ∧
    ∀ fault, Frame.entry receiver type maxLocals maxStack = .error fault →
      ∃ before t after, Frame.Misfit maxLocals (type.entered receiver) before t after ∧
        fault = .invalidLocal (total FieldType.width before) := by
  refine ⟨Frame.entry_ok_iff receiver type maxStack hlast, ?_, ?_⟩
  · intro f hf
    rcases Frame.entry_cases receiver type maxLocals maxStack hlast with
      hok | ⟨before, t, after, -, herror⟩
    · rw [hok] at hf
      cases hf
      rfl
    · rw [herror] at hf
      cases hf
  · intro fault hfault
    rcases Frame.entry_cases receiver type maxLocals maxStack hlast with
      hok | ⟨before, t, after, hmisfit, herror⟩
    · rw [hok] at hfault
      cases hfault
    · rw [herror] at hfault
      cases hfault
      exact ⟨before, t, after, hmisfit, rfl⟩

/-! ## A wide argument in the last locals -/

def intAndLong : MethodDescriptor := ⟨[.base .int, .base .long], none⟩

/-- With four locals the long ends in the last one. With three its first half would still have
a slot, the one that is named. -/
theorem long_fits_with_its_mark_or_not_at_all :
    Frame.entry (some .object) intAndLong 4 0
        = .ok ⟨[.object .object, .int none, .long none, .continuation], [], 0⟩ ∧
      (¬ ∃ f, Frame.entry (some .object) intAndLong 3 0 = .ok f) ∧
      ∃ before t after,
        Frame.Misfit 3 (intAndLong.entered (some .object)) before t after ∧
          Frame.entry (some .object) intAndLong 3 0
            = .error (.invalidLocal (total FieldType.width before)) := by
  obtain ⟨hfour, hlayout, -⟩ :=
    entry_lays_out_its_arguments (some .object) intAndLong 4 0 (by decide)
  obtain ⟨hthree, -, hfault⟩ :=
    entry_lays_out_its_arguments (some .object) intAndLong 3 0 (by decide)
  refine ⟨?_, ?_, ?_⟩
  · obtain ⟨f, hf⟩ := hfour.mpr (by decide)
    rw [hf, hlayout f hf]
    rfl
  · rw [hthree]
    decide
  · have herror : Frame.entry (some .object) intAndLong 3 0 = .error (.invalidLocal 2) := rfl
    obtain ⟨before, t, after, hmisfit, hslot⟩ := hfault _ herror
    exact ⟨before, t, after, hmisfit, herror.trans (congrArg Except.error hslot)⟩

end SymbolicFrames
