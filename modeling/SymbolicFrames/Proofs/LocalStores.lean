-- Stores into locals. A store is noticed in the slots it fills and in the one before them,
-- where a wide value loses its second half, and what becomes of a slot depends on nothing but
-- what was in it. Main statement: a store is made exactly if it fits and does exactly this, and
-- stores that have no slot in common can be made in any order.
import SymbolicFrames.Proofs.Faults
import SymbolicFrames.Proofs.WidePairs

namespace SymbolicFrames

/-! ## What a store does to a slot -/

/-- A wide value whose second slot is taken from it is gone. -/
def Value.brokenUp (v : Value) : Value :=
  if v.width = 2 then .uninitialized else v

theorem Value.brokenUp_of_narrow {v : Value} (h : v.width ≠ 2) : v.brokenUp = v := if_neg h

/-- A value on its way into a local. -/
structure Store where
  slot : Slot
  value : Value
deriving DecidableEq

namespace Store

/-- The slot is one of those that the value takes. -/
def Fills (s : Store) (k : Slot) : Prop := s.slot ≤ k ∧ k < s.slot + s.value.width

/-- No slot is taken by both values. -/
def Apart (s t : Store) : Prop := ∀ k, s.Fills k → ¬ t.Fills k

/-- There are slots for all of the value. -/
def FitsInto (s : Store) (f : Frame) : Prop := s.slot + s.value.width ≤ f.locals.length

/-- What becomes of a slot, if there is one with this number. -/
def effect (s : Store) (k : Slot) (old : Option Value) : Option Value :=
  if k = s.slot then some s.value
  else if k = s.slot + 1 ∧ s.value.width = 2 then some .continuation
  else if k + 1 = s.slot then old.map Value.brokenUp
  else old

theorem apart_iff {s t : Store} :
    s.Apart t ↔ s.slot + s.value.width ≤ t.slot ∨ t.slot + t.value.width ≤ s.slot := by
  have hs := s.value.width_pos
  have ht := t.value.width_pos
  unfold Apart Fills
  constructor
  · intro h
    have h₁ := h s.slot
    have h₂ := h t.slot
    lia
  · intro h k
    lia

theorem Apart.symm {s t : Store} (h : s.Apart t) : t.Apart s :=
  fun k ht hs => h k hs ht

instance (s : Store) (f : Frame) : Decidable (s.FitsInto f) :=
  inferInstanceAs (Decidable (_ ≤ _))

instance : Std.Symm Apart := ⟨fun _ _ h => h.symm⟩

instance (s t : Store) : Decidable (s.Apart t) := decidable_of_iff' _ apart_iff

/-- In a slot that is filled, what was there before makes no difference. In the last of them
there is nothing that could be broken up. -/
theorem effect_of_fills {s : Store} {k : Slot} (h : s.Fills k) :
    ∃ v, (∀ old, s.effect k old = some v) ∧ (k + 1 = s.slot + s.value.width → v.width ≠ 2) := by
  have hwidth := s.value.width_eq_one_or_two
  unfold Fills at h
  unfold effect
  by_cases hk : k = s.slot
  · refine ⟨s.value, fun old => if_pos hk, ?_⟩
    lia
  · refine ⟨.continuation, fun old => ?_, fun _ => by decide⟩
    rw [if_neg hk, if_pos (by lia)]

/-- Outside of what is filled a store only breaks up pairs. -/
theorem effect_of_not_fills {s : Store} {k : Slot} (h : ¬ s.Fills k) (old : Option Value) :
    s.effect k old = if k + 1 = s.slot then old.map Value.brokenUp else old := by
  have hwidth := s.value.width_eq_one_or_two
  unfold Fills at h
  rw [effect, if_neg (by lia), if_neg (by lia)]

/-- A store leaves alone what another one filled. If it lies right behind, it finds the second
half of a pair or a value that is none. -/
theorem Apart.effect_eq {s t : Store} (h : s.Apart t) {k : Slot} (hs : s.Fills k)
    (old old' : Option Value) : t.effect k (s.effect k old) = s.effect k old' := by
  obtain ⟨v, hv, hlast⟩ := effect_of_fills hs
  rw [hv, hv, effect_of_not_fills (h k hs)]
  split
  · rename_i hnext
    have hend : k + 1 = s.slot + s.value.width := by
      have hapart := apart_iff.mp h
      unfold Fills at hs
      lia
    rw [Option.map_some, Value.brokenUp_of_narrow (hlast hend)]
  · rfl

/-- The order of two stores that are apart does not show in any slot. -/
theorem Apart.effect_comm {s t : Store} (h : s.Apart t) (k : Slot) (old : Option Value) :
    t.effect k (s.effect k old) = s.effect k (t.effect k old) := by
  by_cases hs : s.Fills k
  · exact h.effect_eq hs old (t.effect k old)
  · by_cases ht : t.Fills k
    · exact (h.symm.effect_eq ht old (s.effect k old)).symm
    · simp only [effect_of_not_fills hs, effect_of_not_fills ht]
      split
      · exact apply_ite (Option.map Value.brokenUp) _ _ _
      · rfl

end Store

/-! ## One store -/

namespace Frame

variable {f g : Frame}

/-- The frame is what a store makes of another one, slot by slot. -/
structure Stored (f : Frame) (slot : Slot) (v : Value) (g : Frame) : Prop where
  itself : g.locals[slot]? = some v
  mark : v.width = 2 → g.locals[slot + 1]? = some .continuation
  broken : ∀ {before u}, slot = before + 1 → f.locals[before]? = some u → u.width = 2 →
    g.locals[before]? = some .uninitialized
  spared : ∀ {before u}, slot = before + 1 → f.locals[before]? = some u → u.width ≠ 2 →
    g.locals[before]? = some u
  elsewhere : ∀ {j}, j ≠ slot → ¬ (j = slot + 1 ∧ v.width = 2) → j + 1 ≠ slot →
    g.locals[j]? = f.locals[j]?
  length_locals : g.locals.length = f.locals.length
  stack_eq : g.stack = f.stack
  maxStack_eq : g.maxStack = f.maxStack

/-- A store acts on each slot by itself. -/
theorem getElem?_locals_store {s : Store} (h : f.setLocal s.slot s.value = .ok g) (k : Slot) :
    g.locals[k]? = s.effect k f.locals[k]? :=
  getElem?_locals_setLocal h k

theorem stored_of_setLocal {slot : Slot} {v : Value} (h : f.setLocal slot v = .ok g) :
    f.Stored slot v g where
  itself := by rw [getElem?_locals_setLocal h, if_pos rfl]
  mark := by
    intro hwide
    rw [getElem?_locals_setLocal h, if_neg (Nat.succ_ne_self slot), if_pos ⟨rfl, hwide⟩]
  broken := by
    intro before u hslot hu hwide
    rw [getElem?_locals_setLocal h, if_neg (by lia), if_neg (by lia), if_pos hslot.symm, hu,
      Option.map_some, if_pos hwide]
  spared := by
    intro before u hslot hu hnarrow
    rw [getElem?_locals_setLocal h, if_neg (by lia), if_neg (by lia), if_pos hslot.symm, hu,
      Option.map_some, if_neg hnarrow]
  elsewhere := by
    intro j hself hmark hbefore
    rw [getElem?_locals_setLocal h, if_neg hself, if_neg hmark, if_neg hbefore]
  length_locals := by
    obtain ⟨-, rfl⟩ := setLocal_eq_ok h
    rw [List.length_set, length_markPair, length_dropPairOnto]
  stack_eq := stack_setLocal h
  maxStack_eq := by
    obtain ⟨-, rfl⟩ := setLocal_eq_ok h
    rfl

/-- These laws leave no slot open. -/
theorem Stored.getElem?_locals {s : Store} (h : f.Stored s.slot s.value g) (hfits : s.FitsInto f)
    (k : Slot) : g.locals[k]? = s.effect k f.locals[k]? := by
  unfold Store.effect
  split
  · rename_i hself
    rw [hself, h.itself]
  · rename_i hself
    split
    · rename_i hmark
      rw [hmark.1, h.mark hmark.2]
    · rename_i hmark
      split
      · rename_i hbefore
        have hlt : k < f.locals.length := by
          unfold Store.FitsInto at hfits
          lia
        rw [List.getElem?_eq_getElem hlt, Option.map_some, Value.brokenUp]
        split
        · rename_i hwide
          exact h.broken hbefore.symm (List.getElem?_eq_getElem hlt) hwide
        · rename_i hnarrow
          exact h.spared hbefore.symm (List.getElem?_eq_getElem hlt) hnarrow
      · rename_i hbefore
        exact h.elsewhere hself hmark hbefore

/-- Frames with the same limit and stack that hold the same in every slot are the same. -/
theorem eq_of_getElem?_locals {g' : Frame} (hlocals : ∀ k : Slot, g.locals[k]? = g'.locals[k]?)
    (hstack : g.stack = g'.stack) (hmax : g.maxStack = g'.maxStack) : g = g' := by
  obtain ⟨locals, stack, maxStack⟩ := g
  obtain ⟨locals', stack', maxStack'⟩ := g'
  have h : locals = locals' := List.ext_getElem? hlocals
  cases h
  cases hstack
  cases hmax
  rfl

theorem setLocal_eq_ok_iff (s : Store) :
    f.setLocal s.slot s.value = .ok g ↔ s.FitsInto f ∧ f.Stored s.slot s.value g := by
  constructor
  · intro h
    exact ⟨(setLocal_eq_ok h).1, stored_of_setLocal h⟩
  · rintro ⟨hfits, hstored⟩
    obtain ⟨g', hg', -⟩ := setLocal_of_room hfits
    have hstored' := stored_of_setLocal hg'
    have hsame : g = g' := by
      apply eq_of_getElem?_locals
      · intro k
        rw [hstored.getElem?_locals hfits, hstored'.getElem?_locals hfits]
      · rw [hstored.stack_eq, hstored'.stack_eq]
      · rw [hstored.maxStack_eq, hstored'.maxStack_eq]
    rw [hsame, hg']

/-! ## A store in place -/

/-- Overwrites a slot, without a look at the slots next to it. -/
def put (f : Frame) (slot : Slot) (v : Value) : Frame :=
  { f with locals := f.locals.set slot v }

/-- The store done in place, one slot after the other: what becomes of the frame, and what is
reported. -/
def setLocalInPlace (f : Frame) (slot : Slot) (v : Value) : Frame × Except Fault Unit :=
  if f.locals.length < slot + v.width then
    (f, .error (.invalidLocal slot))
  else
    let broken :=
      if 0 < slot ∧ f.locals[slot - 1]?.map Value.width = some 2 then
        f.put (slot - 1) .uninitialized
      else f
    let marked := if v.width = 2 then broken.put (slot + 1) .continuation else broken
    (marked.put slot v, .ok ())

theorem dropPairOnto_eq (ls : List Value) (slot : Slot) :
    dropPairOnto ls slot =
      if 0 < slot ∧ ls[slot - 1]?.map Value.width = some 2 then ls.set (slot - 1) .uninitialized
      else ls := by
  cases slot with
  | zero => rfl
  | succ n =>
    rcases hv : ls[n]? with _ | v
    · simp [dropPairOnto, hv]
    · simp [dropPairOnto, hv]

theorem setLocal_eq_setLocalInPlace (f : Frame) (slot : Slot) (v : Value) :
    f.setLocal slot v =
      (f.setLocalInPlace slot v).2.map fun _ => (f.setLocalInPlace slot v).1 := by
  unfold setLocal setLocalInPlace
  split
  · rfl
  · rw [dropPairOnto_eq, markPair]
    split
    · split
      · rfl
      · rfl
    · split
      · rfl
      · rfl

/-- A store that is refused leaves the frame as it was. -/
theorem setLocalInPlace_refused {slot : Slot} {v : Value} {fault : Fault}
    (h : (f.setLocalInPlace slot v).2 = .error fault) : (f.setLocalInPlace slot v).1 = f := by
  unfold setLocalInPlace at h ⊢
  split
  · rfl
  · rename_i hroom
    rw [if_neg hroom] at h
    cases h

/-! ## Many stores -/

/-- The stores one after the other, up to the first that does not fit. -/
def storeAll (f : Frame) : List Store → Except Fault Frame
  | [] => .ok f
  | s :: rest => do (← f.setLocal s.slot s.value).storeAll rest

theorem storeAll_pair (f : Frame) (s t : Store) :
    f.storeAll [s, t] =
      (f.setLocal s.slot s.value >>= fun g => g.setLocal t.slot t.value) := by
  rcases hs : f.setLocal s.slot s.value with fault | g
  · rw [storeAll, hs]
    rfl
  · rw [storeAll, hs]
    exact bind_pure (g.setLocal t.slot t.value)

/-- Stores that fit are all made, and each slot goes through their effects on it. -/
theorem exists_storeAll {stores : List Store} (h : ∀ s ∈ stores, s.FitsInto f) :
    ∃ g, f.storeAll stores = .ok g ∧
      (∀ k : Slot, g.locals[k]? =
        stores.foldl (fun old s => s.effect k old) f.locals[k]?) ∧
      g.stack = f.stack ∧ g.maxStack = f.maxStack := by
  induction stores generalizing f with
  | nil => exact ⟨f, rfl, fun k => rfl, rfl, rfl⟩
  | cons s rest ih =>
    obtain ⟨hs, hrest⟩ := List.forall_mem_cons.mp h
    obtain ⟨m, hm, hlength⟩ := setLocal_of_room hs
    have hstored := stored_of_setLocal hm
    have hfits : ∀ t ∈ rest, t.FitsInto m := by
      intro t ht
      unfold Store.FitsInto
      rw [hlength]
      exact hrest t ht
    obtain ⟨g, hg, hlocals, hstack, hmax⟩ := ih hfits
    refine ⟨g, ?_, ?_, hstack.trans hstored.stack_eq, hmax.trans hstored.maxStack_eq⟩
    · rw [storeAll, hm]
      exact hg
    · intro k
      rw [hlocals, getElem?_locals_store hm, List.foldl_cons]

/-- No slot shows the order of stores of which any two are apart. -/
theorem foldl_effect_perm {stores stores' : List Store} (hperm : stores.Perm stores')
    (hapart : stores.Pairwise Store.Apart) (k : Slot) (old : Option Value) :
    stores.foldl (fun old s => s.effect k old) old =
      stores'.foldl (fun old s => s.effect k old) old := by
  apply hperm.foldl_eq'
  intro s hs t ht
  by_cases hst : s = t
  · subst hst
    intro old
    rfl
  · exact fun old => (hapart.forall hs ht hst).effect_comm k old

theorem storeAll_perm {stores stores' : List Store} (hperm : stores.Perm stores')
    (hfits : ∀ s ∈ stores, s.FitsInto f) (hapart : stores.Pairwise Store.Apart) :
    ∃ g, f.storeAll stores = .ok g ∧ f.storeAll stores' = .ok g := by
  obtain ⟨g, hg, hlocals, hstack, hmax⟩ := exists_storeAll hfits
  obtain ⟨g', hg', hlocals', hstack', hmax'⟩ :=
    exists_storeAll fun s hs => hfits s (hperm.mem_iff.mpr hs)
  have hsame : g = g' := by
    apply eq_of_getElem?_locals
    · intro k
      rw [hlocals, hlocals', foldl_effect_perm hperm hapart]
    · rw [hstack, hstack']
    · rw [hmax, hmax']
  exact ⟨g, hg, hsame ▸ hg'⟩

end Frame

/-- A store is made exactly if there are slots for all of its value, and it is refused without a
trace otherwise. It leaves the value in its slot, a mark behind a wide one, and nothing of a wide
value whose second slot it took, and it changes nothing else. Stores that have no slot in common
all succeed if they fit, and lead to the same frame in either order and in any order. -/
theorem stores_apart_can_be_reordered (f : Frame) :
    (∀ slot v,
      f.setLocal slot v =
        (f.setLocalInPlace slot v).2.map (fun _ => (f.setLocalInPlace slot v).1) ∧
      (∀ fault, (f.setLocalInPlace slot v).2 = .error fault →
        (f.setLocalInPlace slot v).1 = f) ∧
      ((∃ g, f.setLocal slot v = .ok g) ↔ slot + v.width ≤ f.locals.length) ∧
      ∀ g, f.setLocal slot v = .ok g ↔
        slot + v.width ≤ f.locals.length ∧ f.Stored slot v g) ∧
    (∀ s t : Store, s.FitsInto f → t.FitsInto f → s.Apart t →
      ∃ g, (f.setLocal s.slot s.value >>= fun h => h.setLocal t.slot t.value) = .ok g ∧
        (f.setLocal t.slot t.value >>= fun h => h.setLocal s.slot s.value) = .ok g) ∧
    ∀ stores stores' : List Store, stores.Perm stores' → (∀ s ∈ stores, s.FitsInto f) →
      stores.Pairwise Store.Apart →
      ∃ g, f.storeAll stores = .ok g ∧ f.storeAll stores' = .ok g := by
  refine ⟨?_, ?_, fun stores stores' => Frame.storeAll_perm⟩
  · intro slot v
    refine ⟨f.setLocal_eq_setLocalInPlace slot v, fun fault => Frame.setLocalInPlace_refused,
      ⟨?_, ?_⟩, fun g => Frame.setLocal_eq_ok_iff ⟨slot, v⟩⟩
    · rintro ⟨g, hg⟩
      exact (Frame.setLocal_eq_ok hg).1
    · intro hroom
      obtain ⟨g, hg, -⟩ := Frame.setLocal_of_room hroom
      exact ⟨g, hg⟩
  · intro s t hs ht hapart
    rw [← f.storeAll_pair s t, ← f.storeAll_pair t s]
    exact Frame.storeAll_perm (List.Perm.swap t s []) (by simp [hs, ht]) (by simp [hapart])

/-! ## Stores across two pairs -/

/-- Two wide locals next to each other, and room for one more. -/
def twoPairs : Frame :=
  { locals := [.long (some 1), .continuation, .long (some 2), .continuation, .uninitialized],
    stack := [], maxStack := 0 }

/-- Fills the second slot of the first pair and the first slot of the second. -/
def acrossPairs : Store := ⟨1, .double none⟩

/-- Fills the second slot of the second pair, right behind. -/
def behindPairs : Store := ⟨3, .int (some 7)⟩

/-- Either store breaks up a pair, and the first of them leaves the second none to break. A
third one behind them makes no difference. A pair does not fit into the last slot alone. -/
theorem pairs_are_broken_up_in_any_order :
    (twoPairs.setLocal 1 (.double none) >>= fun f => f.setLocal 3 (.int (some 7)))
        = .ok { twoPairs with locals := [.uninitialized, .double none, .continuation,
          .int (some 7), .uninitialized] } ∧
      (twoPairs.setLocal 3 (.int (some 7)) >>= fun f => f.setLocal 1 (.double none))
        = .ok { twoPairs with locals := [.uninitialized, .double none, .continuation,
          .int (some 7), .uninitialized] } ∧
      (∃ g, twoPairs.storeAll [acrossPairs, behindPairs, ⟨4, .null⟩] = .ok g ∧
        twoPairs.storeAll [⟨4, .null⟩, behindPairs, acrossPairs] = .ok g) ∧
      (twoPairs.setLocalInPlace 4 (.long none)).2 = .error (.invalidLocal 4) ∧
      (twoPairs.setLocalInPlace 4 (.long none)).1 = twoPairs := by
  obtain ⟨hone, htwo, hmany⟩ := stores_apart_can_be_reordered twoPairs
  obtain ⟨g, hfirst, hsecond⟩ := htwo acrossPairs behindPairs (by decide) (by decide) (by decide)
  have hresult : (twoPairs.setLocal 1 (.double none) >>= fun f => f.setLocal 3 (.int (some 7)))
      = .ok { twoPairs with locals := [.uninitialized, .double none, .continuation,
        .int (some 7), .uninitialized] } := rfl
  have hfails : (twoPairs.setLocalInPlace 4 (.long none)).2 = .error (.invalidLocal 4) := rfl
  refine ⟨hresult, hsecond.trans (hfirst.symm.trans hresult), ?_, hfails,
    (hone 4 (.long none)).2.1 _ hfails⟩
  exact hmany _ _ (List.reverse_perm _).symm (by decide) (by decide)

end SymbolicFrames
