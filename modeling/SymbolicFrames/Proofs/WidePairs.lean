-- Wide locals. A local of two slots keeps its mark in the slot after its own, whatever is done
-- to the frame: a store onto one half of a pair takes the other half away, and a join keeps a
-- pair only where both frames have one. Main statement: this holds of every frame that can come
-- about, and so of every frame that an analysis records.
import Mathlib.Logic.Relation
import SymbolicFrames.Proofs.Reachability

namespace SymbolicFrames

/-- A join is wide only if both values are. -/
theorem Value.wide_of_wide_merge {v w : Value} (h : (v.merge w).width = 2) :
    v.width = 2 ∧ w.width = 2 := by
  have hv := v.width_eq_one_or_two
  have hw := w.width_eq_one_or_two
  rw [width_merge] at h
  omega

namespace Frame

variable {f g : Frame}

/-- Every wide local has a slot after its own, and in it its mark. -/
def WellPaired (f : Frame) : Prop :=
  ∀ slot v, f.locals[slot]? = some v → v.width = 2 →
    f.locals[slot + 1]? = some .continuation

/-! ## Stores -/

theorem getElem?_dropPairOnto (ls : List Value) (slot j : Slot) :
    (dropPairOnto ls slot)[j]? =
      if j + 1 = slot then
        ls[j]?.map fun v => if v.width = 2 then .uninitialized else v
      else ls[j]? := by
  cases slot with
  | zero => simp [dropPairOnto]
  | succ n =>
    by_cases hj : j = n
    · subst hj
      rw [if_pos rfl]
      rcases hv : ls[j]? with _ | v
      · rw [dropPairOnto_of_none hv, hv, Option.map_none]
      · obtain ⟨hlt, -⟩ := List.getElem?_eq_some_iff.mp hv
        rw [dropPairOnto_of_some hv, List.getElem?_set_self hlt, Option.map_some]
    · rw [if_neg (by lia)]
      rcases hv : ls[n]? with _ | v
      · rw [dropPairOnto_of_none hv]
      · rw [dropPairOnto_of_some hv, List.getElem?_set_ne (Ne.symm hj)]

/-- What a store leaves in each slot: the value, its mark if it is wide, nothing of a wide
value whose second slot it took, and everything else as it was. -/
theorem getElem?_locals_setLocal {slot : Slot} {v : Value} (h : f.setLocal slot v = .ok g)
    (j : Slot) :
    g.locals[j]? =
      if j = slot then some v
      else if j = slot + 1 ∧ v.width = 2 then some .continuation
      else if j + 1 = slot then
        f.locals[j]?.map fun u => if u.width = 2 then .uninitialized else u
      else f.locals[j]? := by
  obtain ⟨hroom, rfl⟩ := setLocal_eq_ok h
  have hpos := v.width_pos
  have hslot : slot < (markPair (dropPairOnto f.locals slot) slot v).length := by
    rw [length_markPair, length_dropPairOnto]
    lia
  rw [List.getElem?_set, if_pos hslot]
  by_cases hj : j = slot
  · rw [if_pos hj, if_pos hj.symm]
  · rw [if_neg hj, if_neg (Ne.symm hj), markPair]
    by_cases hwide : v.width = 2
    · have hnext : slot + 1 < (dropPairOnto f.locals slot).length := by
        rw [length_dropPairOnto]
        lia
      rw [if_pos hwide, List.getElem?_set, if_pos hnext, getElem?_dropPairOnto]
      simp [hwide, eq_comm]
    · rw [if_neg hwide, getElem?_dropPairOnto]
      simp [hwide]

theorem WellPaired.setLocal (hf : f.WellPaired) {slot : Slot} {v : Value}
    (h : f.setLocal slot v = .ok g) : g.WellPaired := by
  intro j u hu hwide
  rw [getElem?_locals_setLocal h] at hu ⊢
  by_cases hj : j = slot
  · -- The value just stored has its mark next to it.
    rw [if_pos hj, Option.some.injEq] at hu
    subst hu
    rw [if_neg (by lia), if_pos ⟨by lia, hwide⟩]
  · rw [if_neg hj] at hu
    split at hu
    · cases hu
      contradiction
    · split at hu
      · -- What stood before the slot is not wide any more.
        obtain ⟨w, -, rfl⟩ := Option.map_eq_some_iff.mp hu
        split at hwide
        · contradiction
        · contradiction
      · rename_i hbefore
        have hmark := hf j u hu hwide
        rw [if_neg hbefore, if_neg (by lia), hmark]
        split
        · rfl
        · rfl

/-! ## Joins -/

/-- A join keeps a pair only where both frames have one, and there both have its mark. -/
theorem WellPaired.merge (hf : f.WellPaired) (hg : g.WellPaired) {merged : Frame}
    {changed : Bool} (h : f.merge g = .ok (merged, changed)) : merged.WellPaired := by
  obtain ⟨-, -, rfl, -⟩ := merge_eq_ok_iff.mp h
  intro slot u hu hwide
  obtain ⟨v, w, hv, hw, rfl⟩ := List.getElem?_zipWith_eq_some.mp hu
  obtain ⟨hvwide, hwwide⟩ := Value.wide_of_wide_merge hwide
  apply List.getElem?_zipWith_eq_some.mpr
  exact ⟨_, _, hf slot v hv hvwide, hg slot w hw hwwide, Value.merge_self _⟩

/-! ## Whatever is done to a frame -/

/-- Wide locals are paired, and there are so many locals and this limit. -/
structure Formed (maxLocals maxStack : Nat) (f : Frame) : Prop where
  wellPaired : f.WellPaired
  length_locals : f.locals.length = maxLocals
  maxStack_eq : f.maxStack = maxStack

/-- Something is done to a frame, and succeeds. -/
inductive Changes : Frame → Frame → Prop
  | execute {f g : Frame} {i : Instruction} : f.execute i = .ok g → Changes f g
  | setLocal {f g : Frame} {slot : Slot} {v : Value} : f.setLocal slot v = .ok g → Changes f g
  | push {f g : Frame} {v : Value} : f.push v = .ok g → Changes f g
  | pop {f g : Frame} {v : Value} : f.pop = .ok (v, g) → Changes f g
  | handler (f : Frame) (exception : Value) : Changes f (f.handler exception)
  | merge {f g merged : Frame} {changed : Bool} :
      g.WellPaired → f.merge g = .ok (merged, changed) → Changes f merged

section Formed

variable {maxLocals maxStack : Nat}

theorem wellPaired_empty (maxLocals maxStack : Nat) : (empty maxLocals maxStack).WellPaired := by
  intro slot v hv hwide
  simp only [empty, List.getElem?_replicate] at hv
  split at hv
  · cases hv
    contradiction
  · cases hv

theorem formed_empty (maxLocals maxStack : Nat) :
    (empty maxLocals maxStack).Formed maxLocals maxStack :=
  ⟨wellPaired_empty maxLocals maxStack, List.length_replicate, rfl⟩

theorem Formed.setLocal (hf : f.Formed maxLocals maxStack) {slot : Slot} {v : Value}
    (h : f.setLocal slot v = .ok g) : g.Formed maxLocals maxStack := by
  refine ⟨hf.wellPaired.setLocal h, ?_, ?_⟩
  · obtain ⟨-, rfl⟩ := setLocal_eq_ok h
    rw [List.length_set, length_markPair, length_dropPairOnto, hf.length_locals]
  · obtain ⟨-, rfl⟩ := setLocal_eq_ok h
    exact hf.maxStack_eq

/-- The operand stack has no say in it. -/
theorem Formed.withStack (hf : f.Formed maxLocals maxStack) (stack : List Value) :
    Formed maxLocals maxStack { f with stack } :=
  ⟨hf.wellPaired, hf.length_locals, hf.maxStack_eq⟩

theorem Formed.push (hf : f.Formed maxLocals maxStack) {v : Value} (h : f.push v = .ok g) :
    g.Formed maxLocals maxStack := by
  obtain ⟨-, rfl⟩ := push_eq_ok h
  exact hf.withStack _

theorem kept_formed (maxLocals maxStack : Nat) : Kept (Formed maxLocals maxStack) where
  dropped := fun _ hf => hf.withStack _
  pushed := fun hf hpush => hf.push hpush
  stored := fun hf hset => hf.setLocal hset

theorem formed_entry {receiver : Option ClassName} {type : MethodDescriptor}
    (h : entry receiver type maxLocals maxStack = .ok f) : f.Formed maxLocals maxStack :=
  entry_keeps (fun hf hset => hf.setLocal hset) (formed_empty maxLocals maxStack) h

theorem Formed.merge (hf : f.Formed maxLocals maxStack) (hg : g.WellPaired) {merged : Frame}
    {changed : Bool} (h : f.merge g = .ok (merged, changed)) :
    merged.Formed maxLocals maxStack := by
  refine ⟨hf.wellPaired.merge hg h, ?_, ?_⟩
  · obtain ⟨-, hlocals, rfl, -⟩ := merge_eq_ok_iff.mp h
    simp [join, ← hlocals, hf.length_locals]
  · obtain ⟨-, -, rfl, -⟩ := merge_eq_ok_iff.mp h
    exact hf.maxStack_eq

theorem Formed.changes (hf : f.Formed maxLocals maxStack) (h : f.Changes g) :
    g.Formed maxLocals maxStack := by
  cases h with
  | execute hexec => exact (kept_formed maxLocals maxStack).execute hf hexec
  | setLocal hset => exact hf.setLocal hset
  | push hpush => exact hf.push hpush
  | pop hpop => exact (kept_formed maxLocals maxStack).popped hf hpop
  | handler exception => exact hf.withStack _
  | merge hg hmerge => exact hf.merge hg hmerge

/-- However often a frame is changed, its wide locals stay paired and its shape stays. -/
theorem Formed.changed (hf : f.Formed maxLocals maxStack)
    (h : Relation.ReflTransGen Changes f g) : g.Formed maxLocals maxStack := by
  induction h with
  | refl => exact hf
  | tail _ hlast ih => exact ih.changes hlast

end Formed

end Frame

namespace Problem

theorem upholds_formed (problem : Problem) :
    problem.Upholds (Frame.Formed problem.method.maxLocals problem.method.maxStack) where
  entered := fun hf => Frame.formed_entry hf
  kept := Frame.kept_formed _ _
  caught := fun _ _ _ hf => hf.withStack _
  joined := fun hf hg hmerge => hf.merge hg.wellPaired hmerge

end Problem

/-- Wide locals are paired in an empty frame and on entry to a method, and they stay so, and the
number of locals and the limit with them, whatever is done to the frame and how often. So they
are paired in every frame that an analysis records, and each has the locals of the method. -/
theorem wide_locals_stay_paired :
    (∀ maxLocals maxStack, (Frame.empty maxLocals maxStack).WellPaired) ∧
    (∀ receiver type maxLocals maxStack f,
      Frame.entry receiver type maxLocals maxStack = .ok f → f.WellPaired) ∧
    (∀ f g, f.WellPaired → Relation.ReflTransGen Frame.Changes f g →
      g.WellPaired ∧ g.locals.length = f.locals.length ∧ g.maxStack = f.maxStack) ∧
    ∀ settings method graph frames, (analyze settings method graph).result = .ok frames →
      ∀ i f, frames.before? i = some f ∨ frames.after? i = some f →
        f.WellPaired ∧ f.locals.length = method.maxLocals := by
  refine ⟨Frame.wellPaired_empty, ?_, ?_, ?_⟩
  · intro receiver type maxLocals maxStack f hf
    exact (Frame.formed_entry hf).wellPaired
  · intro f g hf hchanges
    have hg := Frame.Formed.changed ⟨hf, rfl, rfl⟩ hchanges
    exact ⟨hg.wellPaired, hg.length_locals, hg.maxStack_eq⟩
  · intro settings method graph frames h i f hf
    have hformed := (Problem.upholds_formed ⟨settings, method, graph⟩).recorded
      (analyze_eq_ok_iff.mp h) hf
    exact ⟨hformed.wellPaired, hformed.length_locals⟩

/-! ## A pair that is broken up -/

/-- Two paths leave different long values in the first two locals. Then something else is put
into the second of them. -/
def halved : Method where
  owner := .object
  name := ⟨"halved", rfl⟩
  type := ⟨[], none⟩
  flags := ⟨AccessFlag.static.mask⟩
  maxLocals := 3
  maxStack := 2
  instructions :=
    [.push (.long 0), .store .long 0,
      .push (.long 1), .store .long 0,
      .push .null, .store .ref 1, .returnVoid]

def halvedGraph : Graph where
  nodes :=
    #[⟨⟨0, 2⟩, [⟨1, .normal⟩, ⟨2, .normal⟩]⟩,
      ⟨⟨2, 4⟩, [⟨2, .normal⟩]⟩,
      ⟨⟨4, 7⟩, []⟩]
  dangling := []

/-- What is in the first two locals; nothing is ever put into the third. -/
def halvedFrame (first second : Value) (stack : List Value) : Frame :=
  { locals := [first, second, .uninitialized], stack, maxStack := 2 }

def halvedFrames : Frames where
  steps :=
    let zero := Value.long (some 0)
    let one := Value.long (some 1)
    #[some ⟨halvedFrame .uninitialized .uninitialized [],
        halvedFrame .uninitialized .uninitialized [zero]⟩,
      some ⟨halvedFrame .uninitialized .uninitialized [zero],
        halvedFrame zero .uninitialized []⟩,
      some ⟨halvedFrame zero .uninitialized [], halvedFrame zero .uninitialized [one]⟩,
      some ⟨halvedFrame zero .uninitialized [one], halvedFrame one .uninitialized []⟩,
      some ⟨halvedFrame .wideTop .uninitialized [], halvedFrame .wideTop .uninitialized [.null]⟩,
      some ⟨halvedFrame .wideTop .uninitialized [.null], halvedFrame .uninitialized .null []⟩,
      some ⟨halvedFrame .uninitialized .null [], halvedFrame .uninitialized .null []⟩]

theorem analyze_halved : (analyze .default halved halvedGraph).result = .ok halvedFrames :=
  result_analyze_of_runWithin 10 (Frame.empty 3 2) (by cbv) (by decide +kernel)
    (by decide +kernel)

/-- Where the paths meet a wide value of unknown category is left, with its mark. The same pair
is broken up by a store from outside. -/
theorem halved_stays_paired :
    (analyze .default halved halvedGraph).result = .ok halvedFrames ∧
      (halvedFrame .wideTop .uninitialized []).WellPaired ∧
      Frame.entry none ⟨[.base .long], none⟩ 2 0
        = .ok ⟨[.long none, .uninitialized], [], 0⟩ ∧
      Frame.WellPaired ⟨[.long none, .uninitialized], [], 0⟩ ∧
      (halvedFrame .wideTop .uninitialized []).Changes (halvedFrame .uninitialized .null []) ∧
      (halvedFrame .uninitialized .null []).WellPaired := by
  obtain ⟨-, hentry, hchanges, hrecorded⟩ := wide_locals_stay_paired
  have hjoined := (hrecorded _ _ _ _ analyze_halved 4 _ (Or.inl rfl)).1
  have hargument : Frame.entry none ⟨[.base .long], none⟩ 2 0
      = .ok ⟨[.long none, .uninitialized], [], 0⟩ := rfl
  have hstore : (halvedFrame .wideTop .uninitialized []).Changes
      (halvedFrame .uninitialized .null []) := @Frame.Changes.setLocal _ _ 1 .null rfl
  exact ⟨analyze_halved, hjoined, hargument, hentry _ _ _ _ _ hargument, hstore,
    (hchanges _ _ hjoined (.single hstore)).1⟩

end SymbolicFrames
