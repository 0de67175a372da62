-- What an instruction does to a frame, whichever instruction it is. It is made of a few moves:
-- values are taken off the stack, pushed onto it or put into locals. So what these keep, every
-- instruction keeps, and two frames that these cannot tell apart no instruction can.
import Mathlib.Data.List.Forall2
import SymbolicFrames.Frame.Execute

namespace SymbolicFrames

theorem bind_eq_ok {ε α β : Type} {x : Except ε α} {next : α → Except ε β} {b : β}
    (h : (x >>= next) = .ok b) : ∃ a, x = .ok a ∧ next a = .ok b := by
  cases x with
  | error e => cases h
  | ok a => exact ⟨a, rfl, h⟩

/-! ## What every instruction keeps -/

namespace Frame

theorem push_eq_ok {f g : Frame} {v : Value} (h : f.push v = .ok g) :
    f.depth + v.width ≤ f.maxStack ∧ g = { f with stack := v :: f.stack } := by
  unfold push at h
  split at h
  · cases h
  · rename_i hroom
    cases h
    exact ⟨Nat.le_of_not_lt hroom, rfl⟩

theorem setLocal_eq_ok {f g : Frame} {slot : Slot} {v : Value}
    (h : f.setLocal slot v = .ok g) :
    slot + v.width ≤ f.locals.length ∧
      g = { f with locals := (markPair (dropPairOnto f.locals slot) slot v).set slot v } := by
  unfold setLocal at h
  split at h
  · cases h
  · rename_i hroom
    cases h
    exact ⟨Nat.le_of_not_lt hroom, rfl⟩

/-- Holds on whenever values are taken off the stack, pushed, or put into locals. -/
structure Kept (P : Frame → Prop) : Prop where
  dropped : ∀ {f} (n : Nat), P f → P { f with stack := f.stack.drop n }
  pushed : ∀ {f g v}, P f → f.push v = .ok g → P g
  stored : ∀ {f g slot v}, P f → f.setLocal slot v = .ok g → P g

theorem dropPairOnto_of_some {ls : List Value} {n : Nat} {v : Value} (h : ls[n]? = some v) :
    dropPairOnto ls (n + 1) = ls.set n (if v.width = 2 then .uninitialized else v) := by
  simp only [dropPairOnto, h]
  split
  · rfl
  · obtain ⟨hlt, rfl⟩ := List.getElem?_eq_some_iff.mp h
    exact (List.set_getElem_self hlt).symm

theorem dropPairOnto_of_none {ls : List Value} {n : Nat} (h : ls[n]? = none) :
    dropPairOnto ls (n + 1) = ls := by
  simp [dropPairOnto, h]

/-- What is taken off a stack and what is left of it make up the stack. -/
theorem takeSlots_eq_ok {slots : Nat} {stack taken left : List Value}
    (h : takeSlots slots stack = .ok (taken, left)) :
    stack = taken ++ left ∧ total Value.width taken = slots := by
  fun_induction takeSlots slots stack generalizing taken left with
  | case1 stack =>
    cases h
    exact ⟨rfl, rfl⟩
  | case2 => cases h
  | case3 => cases h
  | case4 slots v rest hfits ih =>
    obtain ⟨⟨taken', left'⟩, htake, hpair⟩ := bind_eq_ok h
    cases hpair
    obtain ⟨rfl, htotal⟩ := ih htake
    refine ⟨rfl, ?_⟩
    rw [total_cons, htotal]
    omega

theorem takeSlots_eq_drop {slots : Nat} {stack taken left : List Value}
    (h : takeSlots slots stack = .ok (taken, left)) : ∃ n, left = stack.drop n := by
  obtain ⟨rfl, -⟩ := takeSlots_eq_ok h
  exact ⟨taken.length, List.drop_left.symm⟩

namespace Kept

variable {P : Frame → Prop} {f g : Frame}

theorem popped (h : Kept P) (hf : P f) {v : Value} (hpop : f.pop = .ok (v, g)) : P g := by
  unfold pop at hpop
  split at hpop
  · cases hpop
  · rename_i w rest hstack
    cases hpop
    have hdrop := h.dropped 1 hf
    rw [hstack, List.drop_one, List.tail_cons] at hdrop
    exact hdrop

theorem pushAll (h : Kept P) (hf : P f) {vs : List Value} (hpush : f.pushAll vs = .ok g) :
    P g := by
  induction vs generalizing g with
  | nil =>
    cases hpush
    exact hf
  | cons v rest ih =>
    obtain ⟨middle, hrest, hv⟩ := bind_eq_ok hpush
    exact h.pushed (ih hrest) hv

theorem pushOption (h : Kept P) (hf : P f) {v : Option Value} (hpush : f.pushOption v = .ok g) :
    P g := by
  cases v with
  | none =>
    cases hpush
    exact hf
  | some v => exact h.pushed hf hpush

theorem drop (h : Kept P) (hf : P f) {n : Nat} (hdrop : f.drop n = .ok g) : P g := by
  unfold Frame.drop at hdrop
  split at hdrop
  · cases hdrop
  · cases hdrop
    exact h.dropped n hf

theorem call (h : Kept P) (hf : P f) {n : Nat} {v : Option Value} (hcall : f.call n v = .ok g) :
    P g := by
  obtain ⟨middle, hdrop, hpush⟩ := bind_eq_ok hcall
  exact h.pushOption (h.drop hf hdrop) hpush

theorem shuffle (h : Kept P) (hf : P f) {op : Shuffle} (hshuffle : f.shuffle op = .ok g) :
    P g := by
  obtain ⟨⟨top, afterTop⟩, htop, hrest⟩ := bind_eq_ok hshuffle
  obtain ⟨⟨under, left⟩, hunder, hpush⟩ := bind_eq_ok hrest
  obtain ⟨n, rfl⟩ := takeSlots_eq_drop htop
  obtain ⟨m, rfl⟩ := takeSlots_eq_drop hunder
  exact h.pushAll (h.dropped m (h.dropped n hf)) hpush

/-- What the moves keep, every instruction keeps. -/
theorem execute (h : Kept P) (hf : P f) {i : Instruction} (hexec : f.execute i = .ok g) :
    P g := by
  cases i with
  | nop | goto | ret | returnVoid =>
    cases hexec
    exact hf
  | push op =>
    obtain ⟨v, -, hpush⟩ := bind_eq_ok hexec
    exact h.pushed hf hpush
  | load kind slot =>
    obtain ⟨v, -, hpush⟩ := bind_eq_ok hexec
    exact h.pushed hf hpush
  | store kind slot =>
    obtain ⟨⟨v, rest⟩, hpop, hset⟩ := bind_eq_ok hexec
    exact h.stored (h.popped hf hpop) hset
  | increment slot amount =>
    obtain ⟨v, -, hset⟩ := bind_eq_ok hexec
    exact h.stored hf hset
  | unary op =>
    obtain ⟨⟨v, rest⟩, hpop, hresult⟩ := bind_eq_ok hexec
    obtain ⟨result, -, hpush⟩ := bind_eq_ok hresult
    exact h.pushOption (h.popped hf hpop) hpush
  | binary op =>
    obtain ⟨⟨right, rest⟩, hright, hleft⟩ := bind_eq_ok hexec
    obtain ⟨⟨left, rest'⟩, hleft, hpush⟩ := bind_eq_ok hleft
    exact h.pushOption (h.popped (h.popped hf hright) hleft) hpush
  | arrayStore kind => exact h.drop hf hexec
  | shuffle op => exact h.shuffle hf hexec
  | invoke kind method => exact h.call hf hexec
  | invokeDynamic site => exact h.call hf hexec
  | newMultiArray type dimensions => exact h.call hf hexec

end Kept

end Frame

/-! ## Frames that no instruction tells apart -/

/-- Both computations fail with the same fault, or both succeed with related results. -/
inductive Agree {α β : Type} (R : α → β → Prop) : Except Fault α → Except Fault β → Prop
  | ok {a : α} {b : β} : R a b → Agree R (.ok a) (.ok b)
  | error (fault : Fault) : Agree R (.error fault) (.error fault)

theorem Agree.bind {α β γ δ : Type} {R : α → β → Prop} {T : γ → δ → Prop} {x : Except Fault α}
    {y : Except Fault β} {next : α → Except Fault γ} {next' : β → Except Fault δ}
    (h : Agree R x y) (hnext : ∀ a b, R a b → Agree T (next a) (next' b)) :
    Agree T (x >>= next) (y >>= next') := by
  cases h with
  | ok hab => exact hnext _ _ hab
  | error fault => exact .error fault

theorem Agree.imp {α β : Type} {R T : α → β → Prop} {x : Except Fault α} {y : Except Fault β}
    (h : Agree R x y) (himp : ∀ a b, R a b → T a b) : Agree T x y := by
  cases h with
  | ok hab => exact .ok (himp _ _ hab)
  | error fault => exact .error fault

theorem Agree.refl {α : Type} {R : α → α → Prop} (hR : ∀ a, R a a) (x : Except Fault α) :
    Agree R x x := by
  cases x with
  | ok a => exact .ok (hR a)
  | error fault => exact .error fault

theorem Agree.cases {α β : Type} {R : α → β → Prop} {x : Except Fault α} {y : Except Fault β}
    (h : Agree R x y) :
    (∃ fault, x = .error fault ∧ y = .error fault) ∨
      ∃ a b, x = .ok a ∧ y = .ok b ∧ R a b := by
  cases h with
  | ok hab => exact Or.inr ⟨_, _, rfl, rfl, hab⟩
  | error fault => exact Or.inl ⟨fault, rfl, rfl⟩

/-- Relations between values, one for the stack and one for the locals, that hold on through
every operation on values. What is related takes the same room on the stack, but not
necessarily in the locals. -/
structure Similarity where
  operand : Value → Value → Prop
  inLocal : Value → Value → Prop
  operand_refl : ∀ v, operand v v
  inLocal_of_operand : ∀ {v w}, operand v w → inLocal v w
  width_eq : ∀ {v w}, operand v w → v.width = w.width
  /-- A wide local is gone once its second slot is written. -/
  overwritten : ∀ {v w}, inLocal v w →
    inLocal (if v.width = 2 then .uninitialized else v)
      (if w.width = 2 then .uninitialized else w)
  increment : ∀ {v w} amount, inLocal v w → operand (v.increment amount) (w.increment amount)
  unary : ∀ {v w} (op : UnaryOp), operand v w →
    Agree (Option.Rel operand) (op.result v) (op.result w)
  binary : ∀ {l l' r r'} (op : BinaryOp), operand l l' → operand r r' →
    Option.Rel operand (op.result l r) (op.result l' r')

theorem forall₂_getElem? {α β : Type} {R : α → β → Prop} {l : List α} {l' : List β}
    (h : List.Forall₂ R l l') (n : Nat) : Option.Rel R l[n]? l'[n]? := by
  induction h generalizing n with
  | nil => exact .none
  | cons hab _ ih =>
    cases n with
    | zero => exact .some hab
    | succ n => exact ih n

theorem forall₂_set {α β : Type} {R : α → β → Prop} {l : List α} {l' : List β}
    (h : List.Forall₂ R l l') (n : Nat) {a : α} {b : β} (hab : R a b) :
    List.Forall₂ R (l.set n a) (l'.set n b) := by
  induction h generalizing n with
  | nil => exact .nil
  | cons hcd hrest ih =>
    cases n with
    | zero => exact .cons hab hrest
    | succ n => exact .cons hcd (ih n)

namespace Similarity

variable (S : Similarity)

/-- Frames of one shape with related values. -/
structure Similar (f g : Frame) : Prop where
  locals : List.Forall₂ S.inLocal f.locals g.locals
  stack : List.Forall₂ S.operand f.stack g.stack
  maxStack_eq : f.maxStack = g.maxStack

variable {S} {f g : Frame}

theorem Similar.withStack (h : S.Similar f g) {vs ws : List Value}
    (hstack : List.Forall₂ S.operand vs ws) :
    S.Similar { f with stack := vs } { g with stack := ws } :=
  ⟨h.locals, hstack, h.maxStack_eq⟩

theorem map_width_eq {vs ws : List Value} (h : List.Forall₂ S.operand vs ws) :
    vs.map Value.width = ws.map Value.width := by
  induction h with
  | nil => rfl
  | cons hvw _ ih => rw [List.map_cons, List.map_cons, S.width_eq hvw, ih]

theorem total_width_eq {vs ws : List Value} (h : List.Forall₂ S.operand vs ws) :
    total Value.width vs = total Value.width ws := by
  induction h with
  | nil => rfl
  | cons hvw _ ih => rw [total_cons, total_cons, S.width_eq hvw, ih]

theorem Similar.depth_eq (h : S.Similar f g) : f.depth = g.depth := total_width_eq h.stack

theorem push (h : S.Similar f g) {v w : Value} (hvw : S.operand v w) :
    Agree S.Similar (f.push v) (g.push w) := by
  have hfits : f.maxStack < f.depth + v.width ↔ g.maxStack < g.depth + w.width := by
    rw [h.depth_eq, h.maxStack_eq, S.width_eq hvw]
  unfold Frame.push
  by_cases hover : g.maxStack < g.depth + w.width
  · rw [if_pos (hfits.mpr hover), if_pos hover, h.maxStack_eq]
    exact .error _
  · rw [if_neg (mt hfits.mp hover), if_neg hover]
    exact .ok (h.withStack (.cons hvw h.stack))

theorem pushAll (h : S.Similar f g) {vs ws : List Value}
    (hvs : List.Forall₂ S.operand vs ws) :
    Agree S.Similar (f.pushAll vs) (g.pushAll ws) := by
  induction hvs with
  | nil => exact .ok h
  | cons hvw _ ih => exact ih.bind fun _ _ hmiddle => push hmiddle hvw

theorem pushOption (h : S.Similar f g) {v w : Option Value}
    (hvw : Option.Rel S.operand v w) : Agree S.Similar (f.pushOption v) (g.pushOption w) := by
  cases hvw with
  | none => exact .ok h
  | some hvw => exact push h hvw

theorem pop (h : S.Similar f g) :
    Agree (fun x y => S.operand x.1 y.1 ∧ S.Similar x.2 y.2) f.pop g.pop := by
  have hstack := h.stack
  unfold Frame.pop
  revert hstack
  cases f.stack with
  | nil =>
    intro hstack
    rw [List.forall₂_nil_left_iff.mp hstack]
    exact .error _
  | cons v vs =>
    intro hstack
    obtain ⟨w, ws, hvw, hrest, hg⟩ := List.forall₂_cons_left_iff.mp hstack
    rw [hg]
    exact .ok ⟨hvw, h.withStack hrest⟩

theorem drop (h : S.Similar f g) (n : Nat) : Agree S.Similar (f.drop n) (g.drop n) := by
  unfold Frame.drop
  rw [h.stack.length_eq]
  split
  · exact .error _
  · exact .ok (h.withStack (List.forall₂_drop n h.stack))

theorem call (h : S.Similar f g) (n : Nat) (result : Option Value) :
    Agree S.Similar (f.call n result) (g.call n result) := by
  apply (drop h n).bind
  intro f' g' h'
  apply pushOption h'
  cases result with
  | none => exact .none
  | some v => exact .some (S.operand_refl v)

/-! ## Locals -/

theorem agree_getLocal {R : Value → Value → Prop} {slot : Slot}
    (h : Option.Rel R f.locals[slot]? g.locals[slot]?) :
    Agree R (f.getLocal slot) (g.getLocal slot) := by
  unfold Frame.getLocal
  revert h
  generalize f.locals[slot]? = v
  generalize g.locals[slot]? = w
  intro h
  cases h with
  | none => exact .error _
  | some hvw => exact .ok hvw

theorem dropPairOnto {ls ls' : List Value} (h : List.Forall₂ S.inLocal ls ls') (slot : Slot) :
    List.Forall₂ S.inLocal (Frame.dropPairOnto ls slot) (Frame.dropPairOnto ls' slot) := by
  cases slot with
  | zero => exact h
  | succ n =>
    have hslot := forall₂_getElem? h n
    rcases hv : ls[n]? with _ | v
    · rw [hv] at hslot
      generalize hw : ls'[n]? = w at hslot
      cases hslot with
      | none =>
        rw [Frame.dropPairOnto_of_none hv, Frame.dropPairOnto_of_none hw]
        exact h
    · rw [hv] at hslot
      generalize hw : ls'[n]? = w at hslot
      cases hslot with
      | some hvw =>
        rw [Frame.dropPairOnto_of_some hv, Frame.dropPairOnto_of_some hw]
        exact forall₂_set h n (S.overwritten hvw)

theorem setLocal (h : S.Similar f g) (slot : Slot) {v w : Value} (hvw : S.operand v w) :
    Agree S.Similar (f.setLocal slot v) (g.setLocal slot w) := by
  unfold Frame.setLocal
  rw [h.locals.length_eq, S.width_eq hvw]
  split
  · exact .error _
  · have hdrop := dropPairOnto h.locals slot
    have hmark : List.Forall₂ S.inLocal
        (Frame.markPair (Frame.dropPairOnto f.locals slot) slot v)
        (Frame.markPair (Frame.dropPairOnto g.locals slot) slot w) := by
      unfold Frame.markPair
      rw [S.width_eq hvw]
      split
      · exact forall₂_set hdrop _ (S.inLocal_of_operand (S.operand_refl _))
      · exact hdrop
    exact .ok ⟨forall₂_set hmark slot (S.inLocal_of_operand hvw), h.stack, h.maxStack_eq⟩

/-! ## Shuffles -/

theorem takeSlots {vs ws : List Value} (h : List.Forall₂ S.operand vs ws) (slots : Nat) :
    Agree (fun x y => List.Forall₂ S.operand x.1 y.1 ∧ List.Forall₂ S.operand x.2 y.2)
      (takeSlots slots vs) (takeSlots slots ws) := by
  induction h generalizing slots with
  | nil =>
    cases slots with
    | zero => exact .ok ⟨.nil, .nil⟩
    | succ slots => exact .error _
  | cons hvw hrest ih =>
    cases slots with
    | zero => exact .ok ⟨.nil, .cons hvw hrest⟩
    | succ slots =>
      unfold SymbolicFrames.takeSlots
      rw [S.width_eq hvw]
      split
      · exact .error _
      · apply (ih _).bind
        rintro ⟨taken, left⟩ ⟨taken', left'⟩ ⟨htaken, hleft⟩
        exact .ok ⟨.cons hvw htaken, hleft⟩

theorem forall₂_append {vs vs' ws ws' : List Value} (h : List.Forall₂ S.operand vs ws)
    (h' : List.Forall₂ S.operand vs' ws') : List.Forall₂ S.operand (vs ++ vs') (ws ++ ws') :=
  List.rel_append h h'

theorem arrange {top top' under under' : List Value} (op : Shuffle)
    (htop : List.Forall₂ S.operand top top') (hunder : List.Forall₂ S.operand under under') :
    List.Forall₂ S.operand (op.arrange top under) (op.arrange top' under') := by
  cases op with
  | pop | pop2 => exact .nil
  | swap => exact forall₂_append hunder htop
  | dup | dupX1 | dupX2 | dup2 | dup2X1 | dup2X2 =>
    exact forall₂_append (forall₂_append htop hunder) htop

theorem shuffle (h : S.Similar f g) (op : Shuffle) :
    Agree S.Similar (f.shuffle op) (g.shuffle op) := by
  apply (takeSlots h.stack _).bind
  rintro ⟨top, rest⟩ ⟨top', rest'⟩ ⟨htop, hrest⟩
  apply (takeSlots hrest _).bind
  rintro ⟨under, left⟩ ⟨under', left'⟩ ⟨hunder, hleft⟩
  exact pushAll (h.withStack hleft) (arrange op htop hunder)

/-! ## Instructions -/

/-- Where the instruction loads a local, the two frames have there what is related on the
stack too. -/
def LoadsAlike (S : Similarity) (i : Instruction) (f g : Frame) : Prop :=
  ∀ kind slot, i = .load kind slot → ∀ v w, f.locals[slot]? = some v →
    g.locals[slot]? = some w → S.inLocal v w → S.operand v w

theorem load (h : S.Similar f g) {kind : MoveKind} {slot : Slot}
    (hload : LoadsAlike S (.load kind slot) f g) :
    Agree S.Similar (f.execute (.load kind slot)) (g.execute (.load kind slot)) := by
  have hslot : Option.Rel S.operand f.locals[slot]? g.locals[slot]? := by
    have hinLocal := forall₂_getElem? h.locals slot
    have halike := hload kind slot rfl
    revert hinLocal halike
    generalize f.locals[slot]? = v
    generalize g.locals[slot]? = w
    intro hinLocal halike
    cases hinLocal with
    | none => exact .none
    | some hvw => exact .some (halike _ _ rfl rfl hvw)
  exact (agree_getLocal hslot).bind fun _ _ hvw => push h hvw

/-- No instruction tells similar frames apart, save for a load of what is related only in the
locals. -/
theorem execute (h : S.Similar f g) {i : Instruction} (hload : LoadsAlike S i f g) :
    Agree S.Similar (f.execute i) (g.execute i) := by
  cases i with
  | nop | goto | ret | returnVoid => exact .ok h
  | push op =>
    apply (Agree.refl S.operand_refl op.value).bind
    intro v w hvw
    exact push h hvw
  | load kind slot => exact load h hload
  | store kind slot =>
    apply (pop h).bind
    rintro ⟨v, rest⟩ ⟨w, rest'⟩ ⟨hvw, hrest⟩
    exact setLocal hrest slot hvw
  | increment slot amount =>
    apply (agree_getLocal (forall₂_getElem? h.locals slot)).bind
    intro v w hvw
    exact setLocal h slot (S.increment amount hvw)
  | unary op =>
    apply (pop h).bind
    rintro ⟨v, rest⟩ ⟨w, rest'⟩ ⟨hvw, hrest⟩
    apply (S.unary op hvw).bind
    intro result result' hresult
    exact pushOption hrest hresult
  | binary op =>
    apply (pop h).bind
    rintro ⟨r, rest⟩ ⟨r', rest'⟩ ⟨hr, hrest⟩
    apply (pop hrest).bind
    rintro ⟨l, rest⟩ ⟨l', rest'⟩ ⟨hl, hrest⟩
    exact pushOption hrest (S.binary op hl hr)
  | arrayStore kind => exact drop h 3
  | shuffle op => exact shuffle h op
  | invoke kind method => exact call h _ _
  | invokeDynamic site => exact call h _ _
  | newMultiArray type dimensions => exact call h _ _

/-- Where locals are related as values on the stack are, loads make no exception. -/
theorem execute_of_uniform (huniform : ∀ {v w}, S.inLocal v w → S.operand v w)
    (h : S.Similar f g) (i : Instruction) : Agree S.Similar (f.execute i) (g.execute i) := by
  apply execute h
  intro kind slot _ v w _ _ hvw
  exact huniform hvw

end Similarity

end SymbolicFrames
