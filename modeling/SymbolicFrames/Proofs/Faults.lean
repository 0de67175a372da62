-- What can go wrong with one frame. An instruction has only so many faults, none of them a
-- defect. The arguments of a method do not fit into its locals exactly if they are too wide. And
-- frames with as many locals can be joined unless their stacks differ in height.
import SymbolicFrames.Proofs.Shapes

namespace SymbolicFrames

/-! ## The faults of instructions -/

/-- What an instruction can be at fault for, on a frame with this limit. -/
inductive Fault.OfInstruction (limit : Nat) : Fault → Prop
  | emptyStack : OfInstruction limit .emptyStack
  | stackOverflow : OfInstruction limit (.stackOverflow limit)
  | invalidWidth (width : Nat) : OfInstruction limit (.invalidWidth width)
  | invalidLocal (slot : Slot) : OfInstruction limit (.invalidLocal slot)
  | invalidArrayTag (tag : Nat) : OfInstruction limit (.invalidArrayTag tag)
  | illegalConstant (type : BaseType) : OfInstruction limit (.illegalConstant type)

theorem Fault.OfInstruction.ne_internal {limit : Nat} {fault : Fault}
    (h : fault.OfInstruction limit) (defect : Defect) : fault ≠ .internal defect := by
  rintro rfl
  cases h

/-- The computation gives a result with this property, or has a fault of an instruction. -/
inductive Ends {α : Type} (limit : Nat) (Q : α → Prop) : Except Fault α → Prop
  | ok {a : α} : Q a → Ends limit Q (.ok a)
  | error {fault : Fault} : fault.OfInstruction limit → Ends limit Q (.error fault)

theorem Ends.bind {α β : Type} {limit : Nat} {Q : α → Prop} {R : β → Prop} {x : Except Fault α}
    {next : α → Except Fault β} (h : Ends limit Q x) (hnext : ∀ a, Q a → Ends limit R (next a)) :
    Ends limit R (x >>= next) := by
  cases h with
  | ok ha => exact hnext _ ha
  | error hfault => exact .error hfault

theorem Ends.ne_internal {α : Type} {limit : Nat} {Q : α → Prop} {x : Except Fault α}
    (h : Ends limit Q x) (defect : Defect) : x ≠ .error (.internal defect) := by
  rintro rfl
  cases h with
  | error hfault => exact hfault.ne_internal defect rfl

section Operations

variable {limit : Nat}

theorem ends_constant (c : Constant) : Ends limit (fun _ => True) c.value := by
  cases c with
  | classOf type =>
    cases type with
    | base type => exact .error (.illegalConstant type)
    | ref type => exact .ok trivial
  | _ => exact .ok trivial

theorem ends_pushOp (op : PushOp) : Ends limit (fun _ => True) op.value := by
  cases op with
  | constant value => exact ends_constant value
  | _ => exact .ok trivial

theorem ends_unary (op : UnaryOp) (v : Value) : Ends limit (fun _ => True) (op.result v) := by
  cases op with
  | newArray tag =>
    simp only [UnaryOp.result, newArrayValue]
    split
    · exact .ok trivial
    · exact .error (.invalidArrayTag tag)
  | _ => exact .ok trivial

end Operations

theorem Value.width_ofFieldType (t : FieldType) : (Value.ofFieldType t).width = t.width := by
  cases t with
  | base t => cases t <;> rfl
  | ref t => rfl

theorem bind_eq_error {ε α β : Type} {x : Except ε α} {next : α → Except ε β} {e : ε}
    (h : (x >>= next) = .error e) : x = .error e ∨ ∃ a, x = .ok a ∧ next a = .error e := by
  cases x with
  | error e' =>
    cases h
    exact Or.inl rfl
  | ok a => exact Or.inr ⟨a, rfl, h⟩

namespace Frame

variable {limit : Nat} {f : Frame}

/-- Nothing that is done to a frame changes its limit. -/
def HasLimit (limit : Nat) (f : Frame) : Prop := f.maxStack = limit

theorem ends_push (hf : f.HasLimit limit) (v : Value) : Ends limit (HasLimit limit) (f.push v) := by
  unfold HasLimit at hf
  unfold push
  split
  · rw [hf]
    exact .error .stackOverflow
  · exact .ok hf

theorem ends_pushAll (hf : f.HasLimit limit) (vs : List Value) :
    Ends limit (HasLimit limit) (f.pushAll vs) := by
  induction vs with
  | nil => exact .ok hf
  | cons v vs ih => exact ih.bind fun _ hg => ends_push hg v

theorem ends_pushOption (hf : f.HasLimit limit) (v : Option Value) :
    Ends limit (HasLimit limit) (f.pushOption v) := by
  cases v with
  | none => exact .ok hf
  | some v => exact ends_push hf v

theorem ends_pop (hf : f.HasLimit limit) : Ends limit (fun x => HasLimit limit x.2) f.pop := by
  unfold pop
  split
  · exact .error .emptyStack
  · exact .ok hf

theorem ends_drop (hf : f.HasLimit limit) (n : Nat) : Ends limit (HasLimit limit) (f.drop n) := by
  unfold drop
  split
  · exact .error .emptyStack
  · exact .ok hf

theorem ends_call (hf : f.HasLimit limit) (n : Nat) (result : Option Value) :
    Ends limit (HasLimit limit) (f.call n result) :=
  (ends_drop hf n).bind fun _ hg => ends_pushOption hg result

theorem ends_getLocal (f : Frame) (slot : Slot) :
    Ends limit (fun _ => True) (f.getLocal slot) := by
  unfold getLocal
  split
  · exact .ok trivial
  · exact .error (.invalidLocal slot)

theorem ends_setLocal (hf : f.HasLimit limit) (slot : Slot) (v : Value) :
    Ends limit (HasLimit limit) (f.setLocal slot v) := by
  unfold setLocal
  split
  · exact .error (.invalidLocal slot)
  · exact .ok hf

theorem ends_takeSlots (slots : Nat) (stack : List Value) :
    Ends limit (fun _ => True) (takeSlots slots stack) := by
  fun_induction takeSlots slots stack with
  | case1 => exact .ok trivial
  | case2 => exact .error .emptyStack
  | case3 slots v => exact .error (.invalidWidth v.width)
  | case4 slots v rest _ ih => exact ih.bind fun _ _ => .ok trivial

theorem ends_shuffle (hf : f.HasLimit limit) (op : Shuffle) :
    Ends limit (HasLimit limit) (f.shuffle op) := by
  apply (ends_takeSlots op.topSlots f.stack).bind
  rintro ⟨top, afterTop⟩ -
  apply (ends_takeSlots op.underSlots afterTop).bind
  rintro ⟨under, left⟩ -
  have hleft : HasLimit limit { f with stack := left } := hf
  exact ends_pushAll hleft (op.arrange top under)

/-- An instruction gives a frame with the same limit, or is at fault in one of its own ways. -/
theorem ends_execute (hf : f.HasLimit limit) (i : Instruction) :
    Ends limit (HasLimit limit) (f.execute i) := by
  cases i with
  | nop | goto | ret | returnVoid => exact .ok hf
  | push op => exact (ends_pushOp op).bind fun v _ => ends_push hf v
  | load kind slot => exact (ends_getLocal f slot).bind fun v _ => ends_push hf v
  | store kind slot =>
    apply (ends_pop hf).bind
    rintro ⟨v, rest⟩ hrest
    exact ends_setLocal hrest slot v
  | increment slot amount =>
    exact (ends_getLocal f slot).bind fun v _ => ends_setLocal hf slot (v.increment amount)
  | unary op =>
    apply (ends_pop hf).bind
    rintro ⟨v, rest⟩ hrest
    exact (ends_unary op v).bind fun result _ => ends_pushOption hrest result
  | binary op =>
    apply (ends_pop hf).bind
    rintro ⟨r, rest⟩ hrest
    apply (ends_pop hrest).bind
    rintro ⟨l, rest'⟩ hrest'
    exact ends_pushOption hrest' (op.result l r)
  | arrayStore kind => exact ends_drop hf 3
  | shuffle op => exact ends_shuffle hf op
  | invoke kind method => exact ends_call hf _ _
  | invokeDynamic site => exact ends_call hf _ _
  | newMultiArray type dimensions => exact ends_call hf _ _

theorem execute_fault {i : Instruction} {fault : Fault} (h : f.execute i = .error fault) :
    fault.OfInstruction f.maxStack := by
  have hends : Ends f.maxStack (HasLimit f.maxStack) (f.execute i) := ends_execute rfl i
  rw [h] at hends
  cases hends with
  | error hfault => exact hfault

/-! ## Joins -/

/-- Frames with as many locals can be joined unless their stacks differ in height. -/
theorem merge_fault {g : Frame} {fault : Fault} (hlocals : f.locals.length = g.locals.length)
    (h : f.merge g = .error fault) :
    f.stack.length ≠ g.stack.length ∧
      fault = .incompatibleHeights f.stack.length g.stack.length := by
  rcases merge_eq_error_iff.mp h with hheights | ⟨-, hcounts, -⟩
  · exact hheights
  · exact absurd hlocals hcounts

/-! ## Arguments -/

theorem setLocal_of_room {slot : Slot} {v : Value} (h : slot + v.width ≤ f.locals.length) :
    ∃ g, f.setLocal slot v = .ok g ∧ g.locals.length = f.locals.length := by
  refine ⟨_, if_neg (Nat.not_lt_of_le h), ?_⟩
  rw [List.length_set, length_markPair, length_dropPairOnto]

theorem placeArgument_fault {slot : Slot} {v : Value} {fault : Fault}
    (h : f.placeArgument slot v = .error fault) :
    ∃ named, fault = .invalidLocal named := by
  unfold placeArgument setLocal at h
  split at h
  · cases h
    exact ⟨_, rfl⟩
  · split at h
    · cases h
      exact ⟨_, rfl⟩
    · cases h

theorem placeArguments_fault {types : List FieldType} {slot : Slot} {fault : Fault}
    (h : f.placeArguments slot types = .error fault) :
    ∃ named, fault = .invalidLocal named := by
  induction types generalizing f slot with
  | nil => cases h
  | cons t rest ih =>
    rcases bind_eq_error h with hplace | ⟨placed, -, hrest⟩
    · exact placeArgument_fault hplace
    · exact ih hrest

theorem entry_fault {receiver : Option ClassName} {type : MethodDescriptor}
    {maxLocals maxStack : Nat} {fault : Fault}
    (h : entry receiver type maxLocals maxStack = .error fault) :
    ∃ slot, fault = .invalidLocal slot := by
  unfold entry at h
  split at h
  · exact placeArguments_fault h
  · rcases bind_eq_error h with hplace | ⟨placed, -, hrest⟩
    · exact placeArgument_fault hplace
    · exact placeArguments_fault hrest

/-- After one argument has been placed there are as many locals, and there is room for more
behind it exactly if there was room for all of it. -/
theorem placeArgument_bind_ok_iff {slot : Slot} {v : Value} {next : Frame → Except Fault Frame}
    {width : Nat} (hslot : slot ≤ lastSlot)
    (hnext : ∀ g, g.locals.length = f.locals.length → slot + v.width ≤ f.locals.length →
      ((∃ h, next g = .ok h) ↔ slot + v.width + width ≤ f.locals.length)) :
    (∃ h, (f.placeArgument slot v >>= next) = .ok h) ↔
      slot + v.width + width ≤ f.locals.length := by
  -- A slot that has a number is not refused for its number, only for want of room.
  have hplace : f.placeArgument slot v = f.setLocal slot v := if_neg (Nat.not_lt_of_le hslot)
  rw [hplace]
  by_cases hroom : slot + v.width ≤ f.locals.length
  · obtain ⟨g, hg, hlength⟩ := setLocal_of_room hroom
    rw [hg]
    exact hnext g hlength hroom
  · have hfull : f.setLocal slot v = .error (.invalidLocal slot) :=
      if_pos (Nat.lt_of_not_le hroom)
    rw [hfull]
    constructor
    · rintro ⟨h, hh⟩
      cases hh
    · intro hle
      exact absurd (Nat.le_trans (Nat.le_add_right _ _) hle) hroom

/-- Arguments find room from a slot on exactly if all of them together do. -/
theorem placeArguments_ok_iff {types : List FieldType} {slot : Slot}
    (hslot : slot ≤ f.locals.length) (hlast : f.locals.length ≤ lastSlot) :
    (∃ g, f.placeArguments slot types = .ok g) ↔
      slot + total FieldType.width types ≤ f.locals.length := by
  induction types generalizing f slot with
  | nil =>
    constructor
    · intro _
      exact hslot
    · intro _
      exact ⟨f, rfl⟩
  | cons t rest ih =>
    rw [total_cons, ← Nat.add_assoc, ← Value.width_ofFieldType]
    apply placeArgument_bind_ok_iff (Nat.le_trans hslot hlast)
    intro g hlength hroom
    rw [Value.width_ofFieldType] at hroom ⊢
    rw [← hlength] at hroom hlast ⊢
    exact ih hroom hlast

/-- A method can be entered exactly if its arguments, the receiver among them, are no wider
than its locals. -/
theorem entry_ok_iff (receiver : Option ClassName) (type : MethodDescriptor)
    {maxLocals : Nat} (maxStack : Nat) (hlast : maxLocals ≤ lastSlot) :
    (∃ f, entry receiver type maxLocals maxStack = .ok f) ↔
      type.parameterWidth receiver.isSome ≤ maxLocals := by
  let start := empty maxLocals maxStack
  have hlength : start.locals.length = maxLocals := List.length_replicate
  rw [← hlength] at hlast
  cases receiver with
  | none =>
    have hplaced : (∃ f, start.placeArguments 0 type.parameters = .ok f) ↔ _ :=
      placeArguments_ok_iff (Nat.zero_le _) hlast
    rw [hlength] at hplaced
    exact hplaced
  | some name =>
    have hplaced : (∃ f, (start.placeArgument 0 (.object name) >>= fun placed =>
        placed.placeArguments 1 type.parameters) = .ok f) ↔
          0 + (Value.object name).width + total FieldType.width type.parameters
            ≤ start.locals.length := by
      apply placeArgument_bind_ok_iff (Nat.zero_le _)
      intro g hg hroom
      rw [← hg] at hlast hroom ⊢
      exact placeArguments_ok_iff hroom hlast
    rw [hlength] at hplaced
    exact hplaced

end Frame

end SymbolicFrames
