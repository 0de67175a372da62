-- Opcodes and the lists they stand on. The lists by which opcodes are executed and those by
-- which their values are computed were written one by one, and an opcode that stood on a list
-- for two values but was executed with one would be a defect. Main statement: the lists agree
-- for every opcode, so executing it does what executing its grouped form does.
import SymbolicFrames.Folding.Arity
import SymbolicFrames.Opcode.Execute
import SymbolicFrames.Proofs.Faults
import SymbolicFrames.Proofs.SlotShuffles

namespace SymbolicFrames

/-! ## Opcodes and grouped forms -/

theorem Opcode.opcode_form (op : Opcode) : op.form.opcode = op := by
  cases op <;> rfl

theorem PushOp.form_opcode (op : PushOp) : op.opcode.form = .push op := by
  cases op with
  | int offset =>
    revert offset
    decide
  | long value =>
    revert value
    decide
  | float value =>
    revert value
    decide
  | double value =>
    revert value
    decide
  | _ => rfl

theorem UnaryOp.form_opcode (op : UnaryOp) : op.opcode.form = .unary op := by
  cases op with
  | neg kind => cases kind <;> rfl
  | convert conversion => cases conversion <;> rfl
  | returnValue kind => cases kind <;> rfl
  | _ => rfl

theorem BinaryOp.form_opcode (op : BinaryOp) : op.opcode.form = .binary op := by
  cases op with
  | arith op kind => cases op <;> cases kind <;> rfl
  | bits op kind => cases op <;> cases kind <;> rfl
  | shift op kind => cases kind <;> rfl
  | compare comparison => cases comparison <;> rfl
  | arrayLoad kind => cases kind <;> rfl
  | _ => rfl

theorem Instruction.form_opcode (i : Instruction) : i.opcode.form = i := by
  cases i with
  | push op => exact op.form_opcode
  | load kind slot => cases kind <;> rfl
  | store kind slot => cases kind <;> rfl
  | unary op => exact op.form_opcode
  | binary op => exact op.form_opcode
  | arrayStore kind => cases kind <;> rfl
  | shuffle op => cases op <;> rfl
  | _ => rfl

/-! ## Values -/

namespace Opcode

variable (op : Opcode)

theorem pushValue_eq : op.pushValue = op.form.pushOperation := by
  cases op <;> rfl

theorem copyValue_eq (v : Value) : op.copyValue v = op.form.copyOperation v := by
  cases op <;> rfl

theorem unaryValue_eq (v : Value) : op.unaryValue v = op.form.unaryOperation v := by
  cases op with
  | newArray tag =>
    simp only [unaryValue, form, Instruction.unaryOperation, UnaryOp.result, newArrayValue]
    cases BaseType.ofArrayTag? tag <;> rfl
  | _ => rfl

theorem binaryValue_eq (l r : Value) : op.binaryValue l r = op.form.binaryOperation l r := by
  cases op with
  | ish op => cases op <;> rfl
  | lsh op => cases op <;> rfl
  | _ => rfl

theorem ternaryValue_eq (array index value : Value) :
    op.ternaryValue array index value = op.form.ternaryOperation array index value := by
  cases op <;> rfl

theorem naryValue_eq (values : List Value) :
    op.naryValue values = op.form.naryOperation values := by
  cases op <;> rfl

end Opcode

namespace Frame

variable (f : Frame)

theorem popExpecting_one : f.popExpecting 1 = f.popNarrow := rfl

/-- Values that are pushed one after the other end up on the stack as a row. -/
theorem executeOpcode_shuffle (op : Shuffle) : f.executeOpcode op.opcode = f.shuffleByForm op := by
  cases op with
  | pop => rfl
  | pop2 =>
    simp only [Shuffle.opcode, executeOpcode, shuffleByForm, popExpecting_one]
    refine bind_congr fun a => ?_
    rcases a.1.width_eq_one_or_two with h | h <;> simp [h]
  | dup | dupX1 | swap =>
    simp only [Shuffle.opcode, executeOpcode, shuffleByForm, popExpecting_one, Opcode.copyValue,
      ok_bind, bind_assoc, pushAll]
  | dupX2 =>
    simp only [Shuffle.opcode, executeOpcode, shuffleByForm, popExpecting_one, Opcode.copyValue,
      ok_bind, bind_assoc, pushAll]
    refine bind_congr fun a => ?_
    refine bind_congr fun b => ?_
    rcases b.1.width_eq_one_or_two with h | h <;> simp [h]
  | dup2 | dup2X1 =>
    simp only [Shuffle.opcode, executeOpcode, shuffleByForm, popExpecting_one, Opcode.copyValue,
      ok_bind, bind_assoc, pushAll]
    refine bind_congr fun a => ?_
    rcases a.1.width_eq_one_or_two with h | h <;> simp [h]
  | dup2X2 =>
    simp only [Shuffle.opcode, executeOpcode, shuffleByForm, popExpecting_one, Opcode.copyValue,
      ok_bind, bind_assoc, pushAll]
    refine bind_congr fun a => ?_
    rcases a.1.width_eq_one_or_two with h | h
    · simp only [h]
      refine bind_congr fun b => ?_
      refine bind_congr fun c => ?_
      rcases c.1.width_eq_one_or_two with h' | h' <;> simp [h']
    · simp only [h]
      refine bind_congr fun b => ?_
      rcases b.1.width_eq_one_or_two with h' | h' <;> simp [h']

/-- Three values taken one by one are three values taken at once. -/
theorem pop_pop_pop (output : Value → Value → Value → Except Fault (Option Value))
    (houtput : ∀ array index value, output array index value = .ok none) :
    (do
      let (value, f) ← f.pop
      let (index, f) ← f.pop
      let (array, f) ← f.pop
      f.pushOption (← output array index value)) = f.drop 3 := by
  obtain ⟨locals, stack, maxStack⟩ := f
  rcases stack with _ | ⟨value, _ | ⟨index, _ | ⟨array, rest⟩⟩⟩
  · rfl
  · rfl
  · rfl
  · simp [pop, drop, houtput, ok_bind, pushOption]

theorem popMany_bind (count : Nat) (output : List Value → Except Fault (Option Value))
    {result : Option Value} (houtput : ∀ values, output values = .ok result) :
    (do
      let (values, f) ← f.popMany count
      f.pushOption (← output values)) = f.call count result := by
  unfold popMany call drop
  split
  · rfl
  · simp only [houtput, ok_bind]

/-- An opcode is executed with the values that its form takes. -/
theorem executeOpcode_eq (op : Opcode) : f.executeOpcode op = f.execute op.form := by
  have hshuffle : ∀ op : Shuffle, f.executeOpcode op.opcode = f.execute (.shuffle op) :=
    fun op => (f.executeOpcode_shuffle op).trans (f.shuffleByForm_eq op)
  cases op with
  | pop => exact hshuffle .pop
  | pop2 => exact hshuffle .pop2
  | dup => exact hshuffle .dup
  | dupX1 => exact hshuffle .dupX1
  | dupX2 => exact hshuffle .dupX2
  | dup2 => exact hshuffle .dup2
  | dup2X1 => exact hshuffle .dup2X1
  | dup2X2 => exact hshuffle .dup2X2
  | swap => exact hshuffle .swap
  | iastore | lastore | fastore | dastore | aastore | bastore | castore | sastore =>
    exact f.pop_pop_pop _ fun _ _ _ => rfl
  | invoke | invokeDynamic | multiANewArray =>
    exact f.popMany_bind _ _ fun _ => rfl
  | newArray tag =>
    have hvalue := (Opcode.newArray tag).unaryValue_eq
    simp only [executeOpcode, hvalue]
    rfl
  | ish op => cases op <;> rfl
  | lsh op => cases op <;> rfl
  | _ => rfl

theorem executeOpcode_opcode (i : Instruction) : f.executeOpcode i.opcode = f.execute i := by
  rw [executeOpcode_eq, i.form_opcode]

end Frame

/-! ## Lists -/

instance : Nonempty Value := ⟨.top⟩

namespace Instruction

variable (i : Instruction)

theorem pushOperation_answers_iff :
    (∀ defect, i.pushOperation ≠ .error (.internal defect)) ↔ ∃ op, i = .push op := by
  cases i with
  | push op =>
    have hends : Ends 0 (fun _ => True) op.value := ends_pushOp op
    exact ⟨fun _ => ⟨op, rfl⟩, fun _ => hends.ne_internal⟩
  | _ => simp [pushOperation]

theorem copyOperation_answers_iff :
    (∀ v defect, i.copyOperation v ≠ .error (.internal defect)) ↔ i.isCopy := by
  cases h : i.isCopy <;> simp [copyOperation, h]

theorem unaryOperation_answers_iff :
    (∀ v defect, i.unaryOperation v ≠ .error (.internal defect)) ↔
      (∃ op, i = .unary op) ∨ ∃ slot amount, i = .increment slot amount := by
  cases i with
  | unary op =>
    have hends : ∀ v, Ends 0 (fun _ => True) (op.result v) := ends_unary op
    exact ⟨fun _ => Or.inl ⟨op, rfl⟩, fun _ v => (hends v).ne_internal⟩
  | _ => simp [unaryOperation]

theorem binaryOperation_answers_iff :
    (∀ l r defect, i.binaryOperation l r ≠ .error (.internal defect)) ↔ ∃ op, i = .binary op := by
  cases i <;> simp [binaryOperation]

theorem ternaryOperation_answers_iff :
    (∀ array index value defect,
      i.ternaryOperation array index value ≠ .error (.internal defect)) ↔
      ∃ kind, i = .arrayStore kind := by
  cases i <;> simp [ternaryOperation]

theorem naryOperation_answers_iff :
    (∀ values defect, i.naryOperation values ≠ .error (.internal defect)) ↔
      (∃ kind method, i = .invoke kind method) ∨ (∃ site, i = .invokeDynamic site) ∨
        ∃ type dimensions, i = .newMultiArray type dimensions := by
  cases i <;> simp [naryOperation]

end Instruction

namespace Opcode

/-- What the lists say of an opcode. Each list of values has an answer for it exactly if its
form takes so many values, and it is executed as its form is. -/
structure ListsAgree (op : Opcode) : Prop where
  push : (∀ defect, op.pushValue ≠ .error (.internal defect)) ↔ ∃ p, op.form = .push p
  copy : (∀ v defect, op.copyValue v ≠ .error (.internal defect)) ↔ op.form.isCopy
  unary : (∀ v defect, op.unaryValue v ≠ .error (.internal defect)) ↔
    (∃ u, op.form = .unary u) ∨ ∃ slot amount, op.form = .increment slot amount
  binary : (∀ l r defect, op.binaryValue l r ≠ .error (.internal defect)) ↔
    ∃ b, op.form = .binary b
  ternary : (∀ a i v defect, op.ternaryValue a i v ≠ .error (.internal defect)) ↔
    ∃ kind, op.form = .arrayStore kind
  nary : (∀ values defect, op.naryValue values ≠ .error (.internal defect)) ↔
    (∃ kind method, op.form = .invoke kind method) ∨ (∃ site, op.form = .invokeDynamic site) ∨
      ∃ type dimensions, op.form = .newMultiArray type dimensions
  executed : ∀ f : Frame, f.executeOpcode op = f.execute op.form

theorem listsAgree (op : Opcode) : op.ListsAgree where
  push := by
    rw [pushValue_eq]
    exact op.form.pushOperation_answers_iff
  copy := by
    simp only [copyValue_eq]
    exact op.form.copyOperation_answers_iff
  unary := by
    simp only [unaryValue_eq]
    exact op.form.unaryOperation_answers_iff
  binary := by
    simp only [binaryValue_eq]
    exact op.form.binaryOperation_answers_iff
  ternary := by
    simp only [ternaryValue_eq]
    exact op.form.ternaryOperation_answers_iff
  nary := by
    simp only [naryValue_eq]
    exact op.form.naryOperation_answers_iff
  executed := fun f => f.executeOpcode_eq op

end Opcode

end SymbolicFrames
