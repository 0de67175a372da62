-- How far an instruction reaches. It works at the top of the stack: what lies beneath the values
-- it needs is neither looked at nor moved, and only the room it takes counts against the limit.
-- Of the locals it changes none, unless it is a store or an increment. Main statement: what an
-- instruction does, and what instructions in a row do, they do just so over any other values,
-- and a local that is not next to a written one stays as it was.
import SymbolicFrames.Proofs.SlotShuffles
import SymbolicFrames.Proofs.WidePairs

namespace SymbolicFrames

/-! ## More values beneath the stack -/

/-- The same frame with other values beneath its stack and with room for them. -/
def Frame.above (f : Frame) (buried : List Value) : Frame :=
  { f with
    stack := f.stack ++ buried
    maxStack := f.maxStack + total Value.width buried }

def Step.above (s : Step) (buried : List Value) : Step :=
  { before := s.before.above buried, after := s.after.above buried }

def Replay.above (r : Replay) (buried : List Value) : Replay :=
  { r with steps := r.steps.map (Step.above · buried), exit := r.exit.above buried }

namespace Frame

variable {f g : Frame} (buried : List Value)

@[simp]
theorem stack_above (f : Frame) : (f.above buried).stack = f.stack ++ buried := rfl

@[simp]
theorem depth_above (f : Frame) :
    (f.above buried).depth = f.depth + total Value.width buried :=
  total_append Value.width f.stack buried

/-- Room is needed and there is room for as many slots more. -/
theorem push_above {v : Value} (h : f.push v = .ok g) :
    (f.above buried).push v = .ok (g.above buried) := by
  obtain ⟨hroom, rfl⟩ := push_eq_ok h
  refine if_neg (Nat.not_lt_of_le ?_)
  rw [depth_above, Nat.add_right_comm]
  exact Nat.add_le_add_right hroom _

theorem pushAll_above {vs : List Value} (h : f.pushAll vs = .ok g) :
    (f.above buried).pushAll vs = .ok (g.above buried) := by
  induction vs generalizing g with
  | nil =>
    cases h
    rfl
  | cons v rest ih =>
    obtain ⟨middle, hrest, hpush⟩ := bind_eq_ok h
    rw [pushAll, ih hrest]
    exact push_above buried hpush

theorem pushOption_above {v : Option Value} (h : f.pushOption v = .ok g) :
    (f.above buried).pushOption v = .ok (g.above buried) := by
  cases v with
  | none =>
    cases h
    rfl
  | some v => exact push_above buried h

theorem pop_eq_ok {v : Value} (h : f.pop = .ok (v, g)) :
    ∃ rest, f.stack = v :: rest ∧ g = { f with stack := rest } := by
  unfold pop at h
  split at h
  · cases h
  · rename_i w rest hstack
    cases h
    exact ⟨rest, hstack, rfl⟩

theorem pop_above {v : Value} (h : f.pop = .ok (v, g)) :
    (f.above buried).pop = .ok (v, g.above buried) := by
  obtain ⟨rest, hstack, rfl⟩ := pop_eq_ok h
  simp only [pop, stack_above, hstack, List.cons_append]
  rfl

theorem drop_eq_ok {n : Nat} (h : f.drop n = .ok g) :
    n ≤ f.stack.length ∧ g = { f with stack := f.stack.drop n } := by
  unfold drop at h
  split at h
  · cases h
  · rename_i henough
    cases h
    exact ⟨Nat.le_of_not_lt henough, rfl⟩

theorem drop_above {n : Nat} (h : f.drop n = .ok g) :
    (f.above buried).drop n = .ok (g.above buried) := by
  obtain ⟨henough, rfl⟩ := drop_eq_ok h
  have henough' : ¬ (f.stack ++ buried).length < n := by
    rw [List.length_append]
    omega
  rw [drop, stack_above, if_neg henough', List.drop_append_of_le_length henough]
  rfl

theorem call_above {operands : Nat} {result : Option Value} (h : f.call operands result = .ok g) :
    (f.above buried).call operands result = .ok (g.above buried) := by
  obtain ⟨middle, hdrop, hpush⟩ := bind_eq_ok h
  rw [call, drop_above buried hdrop]
  exact pushOption_above buried hpush

/-- The locals are written without a look at the stack. -/
theorem setLocal_above {slot : Slot} {v : Value} (h : f.setLocal slot v = .ok g) :
    (f.above buried).setLocal slot v = .ok (g.above buried) := by
  obtain ⟨hroom, rfl⟩ := setLocal_eq_ok h
  exact if_neg (Nat.not_lt_of_le hroom)

/-- However deep a shuffle reaches, it reaches no deeper than the stack it succeeds on. -/
theorem shuffle_above {op : Shuffle} (h : f.shuffle op = .ok g) :
    (f.above buried).shuffle op = .ok (g.above buried) := by
  obtain ⟨top, under, left, hstack, htop, hunder, hpush⟩ := shuffle_eq_ok_iff.mp h
  refine shuffle_eq_ok_iff.mpr ⟨top, under, left ++ buried, ?_, htop, hunder, ?_⟩
  · rw [stack_above, hstack, List.append_assoc]
  · exact pushAll_above buried hpush

/-! ## One instruction -/

/-- What an instruction does to a stack it does to the same stack over other values. -/
theorem execute_above {i : Instruction} (h : f.execute i = .ok g) :
    (f.above buried).execute i = .ok (g.above buried) := by
  cases i with
  | nop | goto | ret | returnVoid =>
    cases h
    rfl
  | push op =>
    obtain ⟨v, hv, hpush⟩ := bind_eq_ok h
    rw [execute, hv]
    exact push_above buried hpush
  | load kind slot =>
    obtain ⟨v, hv, hpush⟩ := bind_eq_ok h
    have hv' : (f.above buried).getLocal slot = .ok v := hv
    rw [execute, hv']
    exact push_above buried hpush
  | store kind slot =>
    obtain ⟨⟨v, rest⟩, hpop, hset⟩ := bind_eq_ok h
    rw [execute, pop_above buried hpop]
    exact setLocal_above buried hset
  | increment slot amount =>
    obtain ⟨v, hv, hset⟩ := bind_eq_ok h
    have hv' : (f.above buried).getLocal slot = .ok v := hv
    rw [execute, hv']
    exact setLocal_above buried hset
  | unary op =>
    obtain ⟨⟨v, rest⟩, hpop, hresult⟩ := bind_eq_ok h
    obtain ⟨result, hresult, hpush⟩ := bind_eq_ok hresult
    rw [execute, pop_above buried hpop]
    show (op.result v >>= _) = _
    rw [hresult]
    exact pushOption_above buried hpush
  | binary op =>
    obtain ⟨⟨right, rest⟩, hright, hleft⟩ := bind_eq_ok h
    obtain ⟨⟨left, rest'⟩, hleft, hpush⟩ := bind_eq_ok hleft
    rw [execute, pop_above buried hright]
    show ((rest.above buried).pop >>= _) = _
    rw [pop_above buried hleft]
    exact pushOption_above buried hpush
  | arrayStore kind => exact drop_above buried h
  | shuffle op => exact shuffle_above buried h
  | invoke kind method => exact call_above buried h
  | invokeDynamic site => exact call_above buried h
  | newMultiArray type dimensions => exact call_above buried h

end Frame

/-! ## Locals -/

/-- The local that the instruction writes. Only stores and increments write one. -/
def Instruction.written? : Instruction → Option Slot
  | .store _ slot => some slot
  | .increment slot _ => some slot
  | _ => none

/-- The local is written or next to a written one. The one after it gets the mark of a wide
value, and the one before it loses a wide value whose second slot it was. -/
def Instruction.MayChange (i : Instruction) (slot : Slot) : Prop :=
  ∃ written, i.written? = some written ∧
    (slot + 1 = written ∨ slot = written ∨ slot = written + 1)

namespace Frame

variable {f g : Frame}

theorem locals_push {v : Value} (h : f.push v = .ok g) : g.locals = f.locals := by
  obtain ⟨-, rfl⟩ := push_eq_ok h
  rfl

theorem locals_pushOption {v : Option Value} (h : f.pushOption v = .ok g) :
    g.locals = f.locals := by
  cases v with
  | none =>
    cases h
    rfl
  | some v => exact locals_push h

theorem locals_pop {v : Value} (h : f.pop = .ok (v, g)) : g.locals = f.locals := by
  obtain ⟨rest, -, rfl⟩ := pop_eq_ok h
  rfl

theorem locals_drop {n : Nat} (h : f.drop n = .ok g) : g.locals = f.locals := by
  obtain ⟨-, rfl⟩ := drop_eq_ok h
  rfl

theorem locals_call {operands : Nat} {result : Option Value}
    (h : f.call operands result = .ok g) : g.locals = f.locals := by
  obtain ⟨middle, hdrop, hpush⟩ := bind_eq_ok h
  rw [locals_pushOption hpush, locals_drop hdrop]

theorem locals_shuffle {op : Shuffle} (h : f.shuffle op = .ok g) : g.locals = f.locals := by
  obtain ⟨top, under, left, -, -, -, hpush⟩ := shuffle_eq_ok_iff.mp h
  obtain ⟨-, rfl⟩ := pushAll_eq_ok hpush
  rfl

/-- Whatever writes no local leaves them all as they were. -/
theorem locals_execute {i : Instruction} (h : f.execute i = .ok g) (hi : i.written? = none) :
    g.locals = f.locals := by
  cases i with
  | nop | goto | ret | returnVoid =>
    cases h
    rfl
  | push op =>
    obtain ⟨v, -, hpush⟩ := bind_eq_ok h
    exact locals_push hpush
  | load kind slot =>
    obtain ⟨v, -, hpush⟩ := bind_eq_ok h
    exact locals_push hpush
  | store kind slot => cases hi
  | increment slot amount => cases hi
  | unary op =>
    obtain ⟨⟨v, rest⟩, hpop, hresult⟩ := bind_eq_ok h
    obtain ⟨result, -, hpush⟩ := bind_eq_ok hresult
    rw [locals_pushOption hpush, locals_pop hpop]
  | binary op =>
    obtain ⟨⟨right, rest⟩, hright, hleft⟩ := bind_eq_ok h
    obtain ⟨⟨left, rest'⟩, hleft, hpush⟩ := bind_eq_ok hleft
    rw [locals_pushOption hpush, locals_pop hleft, locals_pop hright]
  | arrayStore kind => exact locals_drop h
  | shuffle op => exact locals_shuffle h
  | invoke kind method => exact locals_call h
  | invokeDynamic site => exact locals_call h
  | newMultiArray type dimensions => exact locals_call h

theorem getElem?_setLocal_of_apart {slot j : Slot} {v : Value} (h : f.setLocal slot v = .ok g)
    (hapart : ¬ (j + 1 = slot ∨ j = slot ∨ j = slot + 1)) : g.locals[j]? = f.locals[j]? := by
  rw [not_or, not_or] at hapart
  obtain ⟨hbefore, hself, hafter⟩ := hapart
  rw [getElem?_locals_setLocal h, if_neg hself, if_neg fun hmark => hafter hmark.1,
    if_neg hbefore]

/-- A write is noticed in its own slot and in the two next to it. -/
theorem getElem?_locals_execute {i : Instruction} (h : f.execute i = .ok g) {slot : Slot}
    (hslot : ¬ i.MayChange slot) : g.locals[slot]? = f.locals[slot]? := by
  cases hwritten : i.written? with
  | none => rw [locals_execute h hwritten]
  | some written =>
    have hapart : ¬ (slot + 1 = written ∨ slot = written ∨ slot = written + 1) :=
      fun hnear => hslot ⟨written, hwritten, hnear⟩
    cases i with
    | store kind target =>
      cases hwritten
      obtain ⟨⟨v, rest⟩, hpop, hset⟩ := bind_eq_ok h
      rw [getElem?_setLocal_of_apart hset hapart, locals_pop hpop]
    | increment target amount =>
      cases hwritten
      obtain ⟨v, -, hset⟩ := bind_eq_ok h
      exact getElem?_setLocal_of_apart hset hapart
    | _ => cases hwritten

/-- There are as many locals in the second frame as in the first, and its stack has the same
limit. -/
structure SameSizes (f g : Frame) : Prop where
  length_locals : g.locals.length = f.locals.length
  maxStack_eq : g.maxStack = f.maxStack

theorem kept_sameSizes (f : Frame) : Kept (SameSizes f) where
  dropped := fun _ h => ⟨h.length_locals, h.maxStack_eq⟩
  pushed := by
    intro g g' v h hpush
    obtain ⟨-, rfl⟩ := push_eq_ok hpush
    exact ⟨h.length_locals, h.maxStack_eq⟩
  stored := by
    intro g g' slot v h hset
    obtain ⟨-, rfl⟩ := setLocal_eq_ok hset
    refine ⟨?_, h.maxStack_eq⟩
    rw [List.length_set, length_markPair, length_dropPairOnto, h.length_locals]

end Frame

/-! ## Instructions in a row -/

namespace Replay

theorem run_above {f : Frame} {instructions : List Instruction} (buried : List Value)
    (h : (run f instructions).fault = none) :
    run (f.above buried) instructions = (run f instructions).above buried := by
  induction instructions generalizing f with
  | nil => rfl
  | cons i rest ih =>
    rcases hexec : f.execute i with fault | g
    · simp [run_cons_of_error hexec] at h
    · rw [run_cons_of_ok hexec] at h ⊢
      rw [run_cons_of_ok (Frame.execute_above buried hexec), ih h]
      rfl

theorem getElem?_locals_run {f : Frame} {instructions : List Instruction} {slot : Slot}
    (h : ∀ i ∈ instructions, ¬ i.MayChange slot) :
    (run f instructions).exit.locals[slot]? = f.locals[slot]? := by
  induction instructions generalizing f with
  | nil => rfl
  | cons i rest ih =>
    rcases hexec : f.execute i with fault | g
    · rw [run_cons_of_error hexec]
    · rw [run_cons_of_ok hexec]
      show (run g rest).exit.locals[slot]? = _
      rw [ih fun j hj => h j (List.mem_cons_of_mem i hj)]
      exact Frame.getElem?_locals_execute hexec (h i List.mem_cons_self)

end Replay

/-- Execution is local. An instruction that succeeds on a frame succeeds in the same way with any
other values beneath the stack, if there is room for them, and they stay where they are. It
keeps the locals unless it is a store or an increment, and then those that are not next to the
written one. Instructions in a row are local in the same way. -/
theorem execution_is_local (f : Frame) :
    (∀ i g, f.execute i = .ok g →
      (∀ buried, (f.above buried).execute i = .ok (g.above buried)) ∧
        f.SameSizes g ∧ (i.written? = none → g.locals = f.locals) ∧
        ∀ slot, ¬ i.MayChange slot → g.locals[slot]? = f.locals[slot]?) ∧
    ∀ instructions,
      ((Replay.run f instructions).fault = none → ∀ buried,
        Replay.run (f.above buried) instructions = (Replay.run f instructions).above buried) ∧
      ∀ slot, (∀ i ∈ instructions, ¬ i.MayChange slot) →
        (Replay.run f instructions).exit.locals[slot]? = f.locals[slot]? := by
  refine ⟨?_, ?_⟩
  · intro i g h
    have hsizes := (Frame.kept_sameSizes f).execute ⟨rfl, rfl⟩ h
    exact ⟨fun buried => Frame.execute_above buried h, hsizes, Frame.locals_execute h,
      fun slot => Frame.getElem?_locals_execute h⟩
  · intro instructions
    exact ⟨fun hfault buried => Replay.run_above buried hfault,
      fun slot => Replay.getElem?_locals_run⟩

/-! ## A store onto half a pair -/

/-- A wide local in the first two slots, two references after it, and a full stack. -/
def fullStack : Frame :=
  { locals := [.long (some 1), .uninitialized, .null, .null], stack := [.int (some 3)],
    maxStack := 1 }

/-- The store breaks up the pair and leaves the last local alone, and the number can be loaded
again. A long beneath the stack makes no difference to that. -/
theorem buried_long_survives_a_store :
    fullStack.execute (.store .int 1)
        = .ok ⟨[.uninitialized, .int (some 3), .null, .null], [], 1⟩ ∧
      (fullStack.above [.long none]).execute (.store .int 1)
        = .ok ⟨[.uninitialized, .int (some 3), .null, .null], [.long none], 3⟩ ∧
      ¬ (Instruction.store .int 1).MayChange 3 ∧
      (Replay.run fullStack [.store .int 1, .load .int 1]).exit.locals[3]? = some .null ∧
      (Replay.run (fullStack.above [.long none]) [.store .int 1, .load .int 1]).exit
        = ⟨[.uninitialized, .int (some 3), .null, .null], [.int (some 3), .long none], 3⟩ := by
  obtain ⟨hone, hrow⟩ := execution_is_local fullStack
  have hstore : fullStack.execute (.store .int 1)
      = .ok ⟨[.uninitialized, .int (some 3), .null, .null], [], 1⟩ := rfl
  have hapart : ¬ (Instruction.store .int 1).MayChange 3 := by
    rintro ⟨written, hwritten, hnear⟩
    cases hwritten
    lia
  obtain ⟨habove, hlocals⟩ := hrow [.store .int 1, .load .int 1]
  refine ⟨hstore, (hone _ _ hstore).1 [.long none], hapart, ?_, ?_⟩
  · apply hlocals 3
    intro i hi
    rcases List.mem_pair.mp hi with rfl | rfl
    · exact hapart
    · rintro ⟨written, hwritten, -⟩
      cases hwritten
  · rw [habove rfl [.long none]]
    rfl

end SymbolicFrames
