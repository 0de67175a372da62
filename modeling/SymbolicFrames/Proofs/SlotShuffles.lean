-- Shuffles as operations on slots. A wide value takes two adjacent slots of the operand stack,
-- and a shuffle moves slots without a look at what they hold. Main statement: a shuffle of
-- values does to the slots what the untyped operation does, and it succeeds exactly if none of
-- the places where that operation cuts the stack lies inside a wide value and there is room
-- for what it leaves.
import SymbolicFrames.Proofs.Execution
import SymbolicFrames.Proofs.Joins

namespace SymbolicFrames

/-! ## Slots -/

/-- One slot of the operand stack: the value that it belongs to, and which of the slots of
that value it is. -/
structure Cell where
  value : Value
  part : Nat
deriving DecidableEq

def Value.cells (v : Value) : List Cell := (List.range v.width).map (Cell.mk v)

/-- The slots of a stack, the topmost first. -/
def cellsOf (stack : List Value) : List Cell := stack.flatMap Value.cells

@[simp]
theorem Value.length_cells (v : Value) : v.cells.length = v.width := by
  simp [cells]

@[simp]
theorem cellsOf_append (upper lower : List Value) :
    cellsOf (upper ++ lower) = cellsOf upper ++ cellsOf lower := by
  simp [cellsOf]

@[simp]
theorem length_cellsOf (stack : List Value) :
    (cellsOf stack).length = total Value.width stack := by
  induction stack with
  | nil => rfl
  | cons v rest ih =>
    have hcons : cellsOf (v :: rest) = v.cells ++ cellsOf rest := by simp [cellsOf]
    rw [hcons, List.length_append, ih, Value.length_cells, total_cons]

theorem total_append {α : Type} (measure : α → Nat) (xs ys : List α) :
    total measure (xs ++ ys) = total measure xs + total measure ys := by
  induction xs with
  | nil => simp
  | cons x xs ih => rw [List.cons_append, total_cons, total_cons, ih, Nat.add_assoc]

/-! ## Untyped operations -/

/-- Puts a copy of the topmost slots beneath some of those at the top. -/
def copyBeneath {α : Type} (copied depth : Nat) (slots : List α) : List α :=
  slots.take depth ++ slots.take copied ++ slots.drop depth

def exchangeTop {α : Type} : List α → List α
  | first :: second :: rest => second :: first :: rest
  | slots => slots

namespace Shuffle

/-- What the shuffle does to slots, whatever they hold. -/
def onSlots {α : Type} (op : Shuffle) (slots : List α) : List α :=
  match op with
  | .pop => slots.drop 1
  | .pop2 => slots.drop 2
  | .dup => copyBeneath 1 1 slots
  | .dupX1 => copyBeneath 1 2 slots
  | .dupX2 => copyBeneath 1 3 slots
  | .dup2 => copyBeneath 2 2 slots
  | .dup2X1 => copyBeneath 2 3 slots
  | .dup2X2 => copyBeneath 2 4 slots
  | .swap => exchangeTop slots

/-- How deep the places lie where the stack is cut. -/
def cuts : Shuffle → List Nat
  | .pop => [1]
  | .pop2 => [2]
  | .dup => [1]
  | .dupX1 => [1, 2]
  | .dupX2 => [1, 3]
  | .dup2 => [2]
  | .dup2X1 => [2, 3]
  | .dup2X2 => [2, 4]
  | .swap => [1, 2]

end Shuffle

theorem copyBeneath_append {α : Type} {top under : List α} {copied passed : Nat}
    (htop : top.length = copied) (hunder : under.length = passed) (rest : List α) :
    copyBeneath copied (copied + passed) (top ++ under ++ rest) = top ++ under ++ top ++ rest := by
  have hboth : (top ++ under).length = copied + passed := by
    rw [List.length_append, htop, hunder]
  unfold copyBeneath
  rw [List.take_left' hboth, List.drop_left' hboth, List.append_assoc top under rest,
    List.take_left' htop]

/-- What is put back for what was taken is what the untyped operation leaves. -/
theorem cellsOf_arrange (op : Shuffle) {top under : List Value}
    (htop : total Value.width top = op.topSlots)
    (hunder : total Value.width under = op.underSlots) (left : List Value) :
    cellsOf (op.arrange top under ++ left) = op.onSlots (cellsOf (top ++ under ++ left)) := by
  rw [← length_cellsOf] at htop hunder
  simp only [cellsOf_append]
  generalize cellsOf left = rest
  cases op with
  | pop | pop2 =>
    have hnone : cellsOf under = [] := List.length_eq_zero_iff.mp hunder
    rw [hnone, List.append_nil]
    exact (List.drop_left' htop).symm
  | swap =>
    obtain ⟨first, hfirst⟩ := List.length_eq_one_iff.mp htop
    obtain ⟨second, hsecond⟩ := List.length_eq_one_iff.mp hunder
    simp [Shuffle.arrange, Shuffle.onSlots, hfirst, hsecond, exchangeTop]
  | dup | dupX1 | dupX2 | dup2 | dup2X1 | dup2X2 =>
    simp only [Shuffle.arrange, cellsOf_append]
    exact (copyBeneath_append htop hunder rest).symm

/-! ## Cuts -/

/-- A cut at this depth goes between the two slots of a wide value. -/
def FallsInside (depth : Nat) (stack : List Value) : Prop :=
  ∃ above v below, stack = above ++ v :: below ∧ v.width = 2 ∧
    depth = total Value.width above + 1

theorem fallsInside_cons {depth : Nat} {v : Value} {rest : List Value}
    (h : FallsInside depth rest) : FallsInside (v.width + depth) (v :: rest) := by
  obtain ⟨above, w, below, rfl, hwide, rfl⟩ := h
  exact ⟨v :: above, w, below, rfl, hwide, by rw [total_cons, Nat.add_assoc]⟩

/-- A stack that is put together from two has no value that a cut between them goes through. -/
theorem not_fallsInside_append (upper lower : List Value) :
    ¬ FallsInside (total Value.width upper) (upper ++ lower) := by
  rintro ⟨above, v, below, hstack, hwide, hdepth⟩
  rcases List.append_eq_append_iff.mp hstack with ⟨middle, rfl, hlower⟩ | ⟨middle, rfl, hupper⟩
  · rw [total_append] at hdepth
    omega
  · cases middle with
    | nil =>
      rw [List.append_nil] at hdepth
      omega
    | cons w middle =>
      rw [List.cons_append, List.cons.injEq] at hupper
      rw [total_append, total_cons, ← hupper.1, hwide] at hdepth
      omega

/-- A stack can be taken apart at a depth exactly if it is that deep and the cut does not go
through a value. -/
theorem exists_append_iff (depth : Nat) (stack : List Value) :
    (∃ upper lower, stack = upper ++ lower ∧ total Value.width upper = depth) ↔
      depth ≤ total Value.width stack ∧ ¬ FallsInside depth stack := by
  constructor
  · rintro ⟨upper, lower, rfl, rfl⟩
    refine ⟨?_, not_fallsInside_append upper lower⟩
    rw [total_append]
    exact Nat.le_add_right _ _
  · induction stack generalizing depth with
    | nil =>
      rintro ⟨hdeep, -⟩
      exact ⟨[], [], rfl, (Nat.le_zero.mp hdeep).symm⟩
    | cons v rest ih =>
      rintro ⟨hdeep, hclean⟩
      rw [total_cons] at hdeep
      rcases Nat.eq_zero_or_pos depth with rfl | hpos
      · exact ⟨[], v :: rest, rfl, rfl⟩
      · -- One slot of a wide value cannot be taken alone.
        have hwhole : v.width ≤ depth := by
          by_contra hless
          have hwide : v.width = 2 := by
            have := v.width_eq_one_or_two
            omega
          exact hclean ⟨[], v, rest, rfl, hwide, by rw [total_nil]; omega⟩
        obtain ⟨below, rfl⟩ := Nat.exists_eq_add_of_le hwhole
        obtain ⟨upper, lower, rfl, rfl⟩ := ih below
          ⟨by omega, fun hinside => hclean (fallsInside_cons hinside)⟩
        exact ⟨v :: upper, lower, rfl, rfl⟩

/-- Taking slots off a stack takes it apart at that depth. -/
theorem takeSlots_eq_ok_iff {depth : Nat} {stack taken left : List Value} :
    takeSlots depth stack = .ok (taken, left) ↔
      stack = taken ++ left ∧ total Value.width taken = depth := by
  constructor
  · exact Frame.takeSlots_eq_ok
  · rintro ⟨rfl, rfl⟩
    induction taken with
    | nil => rw [total_nil, List.nil_append, takeSlots]
    | cons v taken ih =>
      obtain ⟨slots, hslots⟩ : ∃ slots, total Value.width (v :: taken) = slots + 1 := by
        have := v.width_eq_one_or_two
        refine ⟨total Value.width (v :: taken) - 1, ?_⟩
        rw [total_cons]
        omega
      rw [hslots, List.cons_append, takeSlots]
      rw [total_cons] at hslots
      have hrest : slots + 1 - v.width = total Value.width taken := by omega
      rw [if_neg (by omega), hrest, ih]
      rfl

/-- Two cuts take a stack apart in three. -/
theorem exists_append_append_iff (upper lower : Nat) (stack : List Value) :
    (∃ top under left, stack = top ++ under ++ left ∧ total Value.width top = upper ∧
      total Value.width under = lower) ↔
      (∃ top rest, stack = top ++ rest ∧ total Value.width top = upper) ∧
        ∃ both left, stack = both ++ left ∧ total Value.width both = upper + lower := by
  constructor
  · rintro ⟨top, under, left, rfl, rfl, rfl⟩
    exact ⟨⟨top, under ++ left, List.append_assoc _ _ _, rfl⟩,
      ⟨top ++ under, left, rfl, total_append Value.width top under⟩⟩
  · rintro ⟨⟨top, rest, rfl, rfl⟩, ⟨both, left, hstack, hboth⟩⟩
    rcases List.append_eq_append_iff.mp hstack with ⟨under, rfl, hrest⟩ | ⟨extra, rfl, hleft⟩
    · rw [total_append] at hboth
      exact ⟨top, under, left, hstack, rfl, by omega⟩
    · -- The second cut is not above the first, so there is nothing between them.
      rw [total_append] at hboth
      exact ⟨both ++ extra, [], rest, by rw [List.append_nil], rfl, by rw [total_nil]; omega⟩

/-! ## Success -/

namespace Frame

variable {f g : Frame}

/-- Values are pushed one by one, and the last of them decides whether there is room. -/
theorem pushAll_of_room {vs : List Value}
    (hroom : vs = [] ∨ total Value.width (vs ++ f.stack) ≤ f.maxStack) :
    f.pushAll vs = .ok { f with stack := vs ++ f.stack } := by
  induction vs with
  | nil => rfl
  | cons v vs ih =>
    have hdeep : v.width + total Value.width (vs ++ f.stack) ≤ f.maxStack := by
      simpa using hroom
    have hrest := ih (Or.inr (Nat.le_trans (Nat.le_add_left _ _) hdeep))
    rw [pushAll, hrest]
    refine if_neg (Nat.not_lt_of_le ?_)
    rw [Nat.add_comm]
    exact hdeep

theorem pushAll_eq_ok {vs : List Value} (h : f.pushAll vs = .ok g) :
    (vs = [] ∨ total Value.width (vs ++ f.stack) ≤ f.maxStack) ∧
      g = { f with stack := vs ++ f.stack } := by
  induction vs generalizing g with
  | nil =>
    cases h
    exact ⟨Or.inl rfl, rfl⟩
  | cons v vs ih =>
    obtain ⟨middle, hrest, hpush⟩ := bind_eq_ok h
    obtain ⟨-, rfl⟩ := ih hrest
    obtain ⟨hroom, rfl⟩ := push_eq_ok hpush
    refine ⟨Or.inr ?_, rfl⟩
    rw [List.cons_append, total_cons, Nat.add_comm]
    exact hroom

/-- A shuffle takes the stack apart in three and puts something back for the upper two. -/
theorem shuffle_eq_ok_iff {op : Shuffle} :
    f.shuffle op = .ok g ↔
      ∃ top under left, f.stack = top ++ under ++ left ∧
        total Value.width top = op.topSlots ∧ total Value.width under = op.underSlots ∧
        { f with stack := left }.pushAll (op.arrange top under) = .ok g := by
  constructor
  · intro h
    obtain ⟨⟨top, afterTop⟩, htop, hrest⟩ := bind_eq_ok h
    obtain ⟨⟨under, left⟩, hunder, hpush⟩ := bind_eq_ok hrest
    obtain ⟨hstack, htotal⟩ := takeSlots_eq_ok_iff.mp htop
    obtain ⟨rfl, hpassed⟩ := takeSlots_eq_ok_iff.mp hunder
    exact ⟨top, under, left, by rw [hstack, List.append_assoc], htotal, hpassed, hpush⟩
  · rintro ⟨top, under, left, hstack, htop, hunder, hpush⟩
    rw [List.append_assoc] at hstack
    unfold shuffle
    rw [takeSlots_eq_ok_iff.mpr ⟨hstack, htop⟩]
    show (takeSlots op.underSlots (under ++ left) >>= _) = _
    rw [takeSlots_eq_ok_iff.mpr ⟨rfl, hunder⟩]
    exact hpush

end Frame

/-- Only drops put nothing back. -/
theorem Shuffle.arrange_eq_nil_iff (op : Shuffle) {top under : List Value}
    (htop : total Value.width top = op.topSlots) :
    op.arrange top under = [] ↔ op = .pop ∨ op = .pop2 := by
  have hsome : top ≠ [] := by
    rintro rfl
    cases op <;> cases htop
  cases op <;> simp [arrange, hsome]

theorem Shuffle.forall_cuts_iff (op : Shuffle) (P : Nat → Prop) :
    (∀ depth ∈ op.cuts, P depth) ↔ P op.topSlots ∧ P (op.topSlots + op.underSlots) := by
  cases op <;> simp [cuts, topSlots, underSlots]

/-! ## Forms -/

theorem ok_bind {α β : Type} (a : α) (next : α → Except Fault β) :
    (.ok a >>= next : Except Fault β) = next a := rfl

theorem ite_bind {α β : Type} (c : Prop) [Decidable c] (x y : Except Fault α)
    (next : α → Except Fault β) :
    (if c then x else y) >>= next = if c then x >>= next else y >>= next := by
  split
  · rfl
  · rfl

namespace Frame

/-- Takes a value of one slot. -/
def popNarrow (f : Frame) : Except Fault (Value × Frame) := do
  let (v, rest) ← f.pop
  if v.width = 1 then .ok (v, rest) else .error (.invalidWidth v.width)

/-- Shuffles told value by value. Those that reach past one slot have a form for each way in
which the widths can fall. -/
def shuffleByForm (f : Frame) : Shuffle → Except Fault Frame
  | .pop => do
    let (_, f) ← f.popNarrow
    .ok f
  | .pop2 => do
    let (a, f) ← f.pop
    if a.width = 2 then
      .ok f
    else do
      let (_, f) ← f.popNarrow
      .ok f
  | .dup => do
    let (a, f) ← f.popNarrow
    f.pushAll [a, a]
  | .dupX1 => do
    let (a, f) ← f.popNarrow
    let (b, f) ← f.popNarrow
    f.pushAll [a, b, a]
  | .dupX2 => do
    let (a, f) ← f.popNarrow
    let (b, f) ← f.pop
    if b.width = 2 then
      f.pushAll [a, b, a]
    else do
      let (c, f) ← f.popNarrow
      f.pushAll [a, b, c, a]
  | .dup2 => do
    let (a, f) ← f.pop
    if a.width = 2 then
      f.pushAll [a, a]
    else do
      let (b, f) ← f.popNarrow
      f.pushAll [a, b, a, b]
  | .dup2X1 => do
    let (a, f) ← f.pop
    if a.width = 2 then do
      let (b, f) ← f.popNarrow
      f.pushAll [a, b, a]
    else do
      let (b, f) ← f.popNarrow
      let (c, f) ← f.popNarrow
      f.pushAll [a, b, c, a, b]
  | .dup2X2 => do
    let (a, f) ← f.pop
    if a.width = 2 then do
      let (b, f) ← f.pop
      if b.width = 2 then
        f.pushAll [a, b, a]
      else do
        let (c, f) ← f.popNarrow
        f.pushAll [a, b, c, a]
    else do
      let (b, f) ← f.popNarrow
      let (c, f) ← f.pop
      if c.width = 2 then
        f.pushAll [a, b, c, a, b]
      else do
        let (d, f) ← f.popNarrow
        f.pushAll [a, b, c, d, a, b]
  | .swap => do
    let (a, f) ← f.popNarrow
    let (b, f) ← f.popNarrow
    f.pushAll [b, a]

/-- The values of so many slots, and the frame without them. -/
def takeTop (f : Frame) (slots : Nat) : Except Fault (List Value × Frame) := do
  let (taken, left) ← takeSlots slots f.stack
  .ok (taken, { f with stack := left })

theorem shuffle_eq_takeTop (f : Frame) (op : Shuffle) :
    f.shuffle op = f.takeTop op.topSlots >>= fun x =>
      x.2.takeTop op.underSlots >>= fun y => y.2.pushAll (op.arrange x.1 y.1) := by
  simp only [shuffle, takeTop, bind_assoc, ok_bind]

theorem takeTop_zero (f : Frame) : f.takeTop 0 = .ok ([], f) := by
  rw [takeTop, takeSlots]
  rfl

theorem takeTop_succ (f : Frame) (slots : Nat) :
    f.takeTop (slots + 1) = f.pop >>= fun x =>
      if slots + 1 < x.1.width then .error (.invalidWidth x.1.width)
      else x.2.takeTop (slots + 1 - x.1.width) >>= fun y => .ok (x.1 :: y.1, y.2) := by
  obtain ⟨locals, stack, maxStack⟩ := f
  cases stack with
  | nil =>
    rw [takeTop, takeSlots]
    rfl
  | cons v rest =>
    rw [takeTop, takeSlots]
    simp only [pop, takeTop, ite_bind, ok_bind, bind_assoc]
    rfl

theorem takeTop_one (f : Frame) :
    f.takeTop 1 = f.popNarrow >>= fun x => .ok ([x.1], x.2) := by
  rw [takeTop_succ, popNarrow]
  rcases f.pop with fault | ⟨v, rest⟩
  · rfl
  · rcases v.width_eq_one_or_two with hnarrow | hwide
    · simp [ok_bind, hnarrow, takeTop_zero]
    · simp only [ok_bind, hwide]
      rfl

theorem takeTop_two (f : Frame) :
    f.takeTop 2 = f.pop >>= fun x =>
      if x.1.width = 2 then .ok ([x.1], x.2)
      else x.2.popNarrow >>= fun y => .ok ([x.1, y.1], y.2) := by
  rw [takeTop_succ]
  rcases f.pop with fault | ⟨v, rest⟩
  · rfl
  · rcases v.width_eq_one_or_two with hnarrow | hwide
    · simp [ok_bind, hnarrow, takeTop_one]
    · simp [ok_bind, hwide, takeTop_zero]

/-- However the widths fall, taking values one by one is taking slots. -/
theorem shuffleByForm_eq (f : Frame) (op : Shuffle) : f.shuffleByForm op = f.shuffle op := by
  rw [shuffle_eq_takeTop]
  cases op with
  | pop | dup =>
    simp only [Shuffle.topSlots, Shuffle.underSlots, takeTop_one, takeTop_zero, bind_assoc,
      ok_bind]
    rfl
  | dupX1 | swap =>
    simp only [Shuffle.topSlots, Shuffle.underSlots, takeTop_one, bind_assoc, ok_bind]
    rfl
  | pop2 | dup2 =>
    simp only [Shuffle.topSlots, Shuffle.underSlots, takeTop_two, takeTop_zero, bind_assoc,
      ok_bind, ite_bind]
    rfl
  | dupX2 | dup2X1 =>
    simp only [Shuffle.topSlots, Shuffle.underSlots, takeTop_one, takeTop_two, bind_assoc,
      ok_bind, ite_bind]
    rfl
  | dup2X2 =>
    simp only [Shuffle.topSlots, Shuffle.underSlots, takeTop_two, bind_assoc, ok_bind,
      ite_bind]
    rfl

end Frame

/-- A shuffle of values is the untyped operation on their slots and leaves the locals alone.
It succeeds exactly if the stack reaches down to every cut of that operation, no cut falls
inside a wide value and, where something is put back, the stack then fits its limit. The forms
that it takes value by value, as the widths fall, all come to this. -/
theorem shuffles_act_on_slots (f : Frame) (op : Shuffle) :
    f.execute (.shuffle op) = f.shuffleByForm op ∧
    (∀ g, f.execute (.shuffle op) = .ok g →
      cellsOf g.stack = op.onSlots (cellsOf f.stack) ∧ g.locals = f.locals ∧
        g.maxStack = f.maxStack) ∧
    ((∃ g, f.execute (.shuffle op) = .ok g) ↔
      (∀ depth ∈ op.cuts, depth ≤ (cellsOf f.stack).length ∧ ¬ FallsInside depth f.stack) ∧
        (op ≠ .pop → op ≠ .pop2 → (op.onSlots (cellsOf f.stack)).length ≤ f.maxStack)) := by
  refine ⟨(f.shuffleByForm_eq op).symm, ?_, ?_⟩
  · intro g h
    obtain ⟨top, under, left, hstack, htop, hunder, hpush⟩ := Frame.shuffle_eq_ok_iff.mp h
    obtain ⟨-, rfl⟩ := Frame.pushAll_eq_ok hpush
    rw [hstack]
    exact ⟨cellsOf_arrange op htop hunder left, rfl, rfl⟩
  · rw [length_cellsOf, op.forall_cuts_iff, ← exists_append_iff, ← exists_append_iff,
      ← exists_append_append_iff]
    constructor
    · rintro ⟨g, h⟩
      obtain ⟨top, under, left, hstack, htop, hunder, hpush⟩ := Frame.shuffle_eq_ok_iff.mp h
      obtain ⟨hroom, -⟩ := Frame.pushAll_eq_ok hpush
      refine ⟨⟨top, under, left, hstack, htop, hunder⟩, ?_⟩
      intro hpop hpop2
      rw [hstack, ← cellsOf_arrange op htop hunder left, length_cellsOf]
      rcases hroom with hnil | hroom
      · exact absurd ((op.arrange_eq_nil_iff htop).mp hnil) (by simp [hpop, hpop2])
      · exact hroom
    · rintro ⟨⟨top, under, left, hstack, htop, hunder⟩, hroom⟩
      rw [hstack, ← cellsOf_arrange op htop hunder left, length_cellsOf] at hroom
      refine ⟨_, Frame.shuffle_eq_ok_iff.mpr ⟨top, under, left, hstack, htop, hunder,
        Frame.pushAll_of_room ?_⟩⟩
      rw [op.arrange_eq_nil_iff htop]
      by_cases hdrops : op = .pop ∨ op = .pop2
      · exact Or.inl hdrops
      · rw [not_or] at hdrops
        exact Or.inr (hroom hdrops.1 hdrops.2)

/-! ## A pair over a long -/

/-- Two numbers of one slot on top of one of two. -/
def pairOverLong : Frame :=
  { locals := [], stack := [.int (some 1), .int (some 2), .long (some 3)], maxStack := 6 }

/-- Both numbers can be copied beneath the long. Beneath its upper slot alone they cannot. -/
theorem pair_is_copied_beneath_the_whole_long :
    pairOverLong.execute (.shuffle .dup2X2) =
      .ok { pairOverLong with stack := pairOverLong.stack ++ [.int (some 1), .int (some 2)] } ∧
    cellsOf (pairOverLong.stack ++ [.int (some 1), .int (some 2)]) =
      Shuffle.onSlots .dup2X2 (cellsOf pairOverLong.stack) ∧
    ¬ ∃ g, pairOverLong.execute (.shuffle .dup2X1) = .ok g := by
  obtain ⟨hforms, hslots, -⟩ := shuffles_act_on_slots pairOverLong .dup2X2
  obtain ⟨-, -, hsucceeds⟩ := shuffles_act_on_slots pairOverLong .dup2X1
  have hcopied : pairOverLong.execute (.shuffle .dup2X2) =
      .ok { pairOverLong with stack := pairOverLong.stack ++ [.int (some 1), .int (some 2)] } :=
    hforms.trans rfl
  have hinside : FallsInside 3 pairOverLong.stack :=
    ⟨[.int (some 1), .int (some 2)], .long (some 3), [], rfl, rfl, rfl⟩
  refine ⟨hcopied, (hslots _ hcopied).1, ?_⟩
  rw [hsucceeds]
  rintro ⟨hcuts, -⟩
  exact (hcuts 3 (by decide)).2 hinside

end SymbolicFrames
