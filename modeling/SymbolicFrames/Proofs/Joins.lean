-- The laws of joining. A value or a frame absorbs another if joining the other into it
-- changes nothing. What has been joined into a frame is absorbed by it from then on, and a
-- frame that absorbs two others absorbs their join.
import Mathlib.Data.List.Forall2
import SymbolicFrames.Frame.Merge

namespace SymbolicFrames

/-! ## Values -/

namespace Value

theorem merge_self (v : Value) : v.merge v = v := by
  simp [merge]

theorem merge_comm (v w : Value) : v.merge w = w.merge v := by
  by_cases h : v = w
  · rw [h]
  · simp [merge, h, Ne.symm h, and_comm]

theorem merge_assoc (u v w : Value) : (u.merge v).merge w = u.merge (v.merge w) := by
  by_cases huv : u = v
  · by_cases hvw : v = w
    · rw [huv, hvw, merge_self]
    · grind [merge, width]
  · grind [merge, width]

theorem width_pos (v : Value) : 0 < v.width := by
  cases v <;> exact Nat.succ_pos _

theorem width_eq_one_or_two (v : Value) : v.width = 1 ∨ v.width = 2 := by
  cases v <;> simp [width]

/-- What is left of two values takes as many slots as the narrower of them. -/
theorem width_merge (v w : Value) : (v.merge w).width = min v.width w.width := by
  have hv := v.width_eq_one_or_two
  have hw := w.width_eq_one_or_two
  unfold merge
  split
  · rename_i h
    rw [h, Nat.min_self]
  · split
    · rename_i hwide
      rw [hwide.1, hwide.2]
      rfl
    · show 1 = _
      omega

theorem width_merge_le (v w : Value) : (v.merge w).width ≤ v.width := by
  rw [width_merge]
  exact Nat.min_le_left _ _

/-- Joining the other value in changes nothing. -/
def Absorbs (v w : Value) : Prop := v.merge w = v

theorem absorbs_self (v : Value) : v.Absorbs v := merge_self v

theorem Absorbs.trans {u v w : Value} (h : u.Absorbs v) (h' : v.Absorbs w) : u.Absorbs w := by
  unfold Absorbs at *
  calc u.merge w = (u.merge v).merge w := by rw [h]
    _ = u.merge (v.merge w) := merge_assoc u v w
    _ = u := by rw [h', h]

theorem Absorbs.antisymm {v w : Value} (h : v.Absorbs w) (h' : w.Absorbs v) : v = w := by
  unfold Absorbs at *
  rw [← h, merge_comm, h']

theorem merge_absorbs_left (v w : Value) : (v.merge w).Absorbs v := by
  unfold Absorbs
  rw [merge_comm, ← merge_assoc, merge_self]

theorem merge_absorbs_right (v w : Value) : (v.merge w).Absorbs w := by
  unfold Absorbs
  rw [merge_assoc, merge_self]

theorem Absorbs.merge {u v w : Value} (h : u.Absorbs v) (h' : u.Absorbs w) :
    u.Absorbs (v.merge w) := by
  unfold Absorbs at *
  rw [← merge_assoc, h, h']

/-- Beyond itself, a value absorbs others only if it stands for values that disagree. -/
theorem absorbs_iff {v w : Value} :
    v.Absorbs w ↔ v = w ∨ v = .top ∨ (v = .wideTop ∧ w.width = 2) := by
  unfold Absorbs Value.merge
  by_cases heq : v = w
  · simp [heq]
  · by_cases hwide : v.width = 2 ∧ w.width = 2
    · rw [if_neg heq, if_pos hwide]
      constructor
      · intro h
        exact Or.inr (Or.inr ⟨h.symm, hwide.2⟩)
      · rintro (h | h | h)
        · exact absurd h heq
        · rw [h] at hwide
          exact absurd hwide.1 (by decide)
        · exact h.1.symm
    · rw [if_neg heq, if_neg hwide]
      constructor
      · intro h
        exact Or.inr (Or.inl h.symm)
      · rintro (h | h | ⟨rfl, h⟩)
        · exact absurd h heq
        · exact h.symm
        · exact absurd ⟨rfl, h⟩ hwide

end Value

/-! ## Rows of values -/

theorem forall₂_absorbs_iff {vs ws : List Value} :
    List.Forall₂ Value.Absorbs vs ws
      ↔ vs.length = ws.length ∧ List.zipWith Value.merge vs ws = vs := by
  induction vs generalizing ws with
  | nil => cases ws <;> simp
  | cons v vs ih =>
    cases ws with
    | nil => simp
    | cons w ws =>
      rw [List.forall₂_cons, ih]
      simp only [List.length_cons, Nat.add_right_cancel_iff, List.zipWith_cons_cons,
        List.cons.injEq, Value.Absorbs]
      tauto

theorem forall₂_absorbs_self (vs : List Value) : List.Forall₂ Value.Absorbs vs vs :=
  List.forall₂_same.mpr fun v _ => v.absorbs_self

theorem forall₂_absorbs_trans {us vs ws : List Value} (h : List.Forall₂ Value.Absorbs us vs)
    (h' : List.Forall₂ Value.Absorbs vs ws) : List.Forall₂ Value.Absorbs us ws := by
  induction h generalizing ws with
  | nil => exact h'
  | cons hv _ ih =>
    cases h' with
    | cons hw hrest => exact .cons (hv.trans hw) (ih hrest)

theorem forall₂_absorbs_antisymm {vs ws : List Value} (h : List.Forall₂ Value.Absorbs vs ws)
    (h' : List.Forall₂ Value.Absorbs ws vs) : vs = ws := by
  induction h with
  | nil => rfl
  | cons hv _ ih =>
    cases h' with
    | cons hw hrest => rw [hv.antisymm hw, ih hrest]

theorem zipWith_merge_absorbs {vs ws : List Value} (h : vs.length = ws.length) :
    List.Forall₂ Value.Absorbs (List.zipWith Value.merge vs ws) vs ∧
      List.Forall₂ Value.Absorbs (List.zipWith Value.merge vs ws) ws := by
  induction vs generalizing ws with
  | nil => cases ws <;> simp_all
  | cons v vs ih =>
    cases ws with
    | nil => simp at h
    | cons w ws =>
      obtain ⟨h₁, h₂⟩ := ih (Nat.add_right_cancel h)
      exact ⟨.cons (v.merge_absorbs_left w) h₁, .cons (v.merge_absorbs_right w) h₂⟩

theorem forall₂_absorbs_zipWith {us vs ws : List Value} (h : List.Forall₂ Value.Absorbs us vs)
    (h' : List.Forall₂ Value.Absorbs us ws) :
    List.Forall₂ Value.Absorbs us (List.zipWith Value.merge vs ws) := by
  induction h generalizing ws with
  | nil => simp
  | cons hv _ ih =>
    cases h' with
    | cons hw hrest => exact .cons (hv.merge hw) (ih hrest)

/-! ## Frames -/

namespace Frame

/-- Joining the other frame in succeeds and changes nothing. -/
def Absorbs (f g : Frame) : Prop := f.merge g = .ok (f, false)

theorem merge_eq_ok_iff {f g merged : Frame} {changed : Bool} :
    f.merge g = .ok (merged, changed) ↔
      f.stack.length = g.stack.length ∧ f.locals.length = g.locals.length ∧
        merged = f.join g ∧ changed = decide (merged ≠ f) := by
  unfold merge
  by_cases hstack : f.stack.length = g.stack.length
  · by_cases hlocals : f.locals.length = g.locals.length
    · simp only [hstack, hlocals, ne_eq, not_true_eq_false, if_false, Except.ok.injEq,
        Prod.mk.injEq, true_and]
      constructor
      · rintro ⟨rfl, rfl⟩
        exact ⟨rfl, rfl⟩
      · rintro ⟨rfl, rfl⟩
        exact ⟨rfl, rfl⟩
    · simp [hstack, hlocals]
  · simp [hstack]

/-- The heights of the stacks are looked at first. -/
theorem merge_eq_error_iff {f g : Frame} {fault : Fault} :
    f.merge g = .error fault ↔
      (f.stack.length ≠ g.stack.length ∧
        fault = .incompatibleHeights f.stack.length g.stack.length) ∨
      (f.stack.length = g.stack.length ∧ f.locals.length ≠ g.locals.length ∧
        fault = .internal .localCounts) := by
  unfold merge
  by_cases hstack : f.stack.length = g.stack.length
  · by_cases hlocals : f.locals.length = g.locals.length
    · simp [hstack, hlocals]
    · simp [hstack, hlocals, eq_comm]
  · simp [hstack, eq_comm]

theorem absorbs_iff {f g : Frame} :
    f.Absorbs g ↔ List.Forall₂ Value.Absorbs f.locals g.locals ∧
      List.Forall₂ Value.Absorbs f.stack g.stack := by
  unfold Absorbs
  rw [merge_eq_ok_iff, forall₂_absorbs_iff, forall₂_absorbs_iff]
  constructor
  · rintro ⟨hstack, hlocals, hjoin, -⟩
    exact ⟨⟨hlocals, (congrArg Frame.locals hjoin).symm⟩,
      ⟨hstack, (congrArg Frame.stack hjoin).symm⟩⟩
  · rintro ⟨⟨hlocals, hl⟩, ⟨hstack, hs⟩⟩
    refine ⟨hstack, hlocals, ?_, by simp⟩
    simp [join, hl, hs]

theorem absorbs_self (f : Frame) : f.Absorbs f :=
  absorbs_iff.mpr ⟨forall₂_absorbs_self _, forall₂_absorbs_self _⟩

theorem Absorbs.trans {f g h : Frame} (h₁ : f.Absorbs g) (h₂ : g.Absorbs h) : f.Absorbs h := by
  rw [absorbs_iff] at *
  exact ⟨forall₂_absorbs_trans h₁.1 h₂.1, forall₂_absorbs_trans h₁.2 h₂.2⟩

/-- Two frames that absorb each other can differ only in how deep their stacks may get. -/
theorem Absorbs.antisymm {f g : Frame} (h : f.Absorbs g) (h' : g.Absorbs f)
    (hmax : f.maxStack = g.maxStack) : f = g := by
  rw [absorbs_iff] at *
  obtain ⟨locals, stack, maxStack⟩ := f
  obtain ⟨locals', stack', maxStack'⟩ := g
  simp only at h h' hmax
  rw [forall₂_absorbs_antisymm h.1 h'.1, forall₂_absorbs_antisymm h.2 h'.2, hmax]

/-- A join that changes nothing gives the first frame back. -/
theorem eq_of_merge_unchanged {f g merged : Frame} (h : f.merge g = .ok (merged, false)) :
    merged = f := by
  obtain ⟨-, -, -, hchanged⟩ := merge_eq_ok_iff.mp h
  simpa using hchanged

/-- A join absorbs both frames that it came from. -/
theorem merge_absorbs {f g merged : Frame} {changed : Bool}
    (h : f.merge g = .ok (merged, changed)) : merged.Absorbs f ∧ merged.Absorbs g := by
  obtain ⟨hstack, hlocals, rfl, -⟩ := merge_eq_ok_iff.mp h
  rw [absorbs_iff, absorbs_iff]
  obtain ⟨hl₁, hl₂⟩ := zipWith_merge_absorbs hlocals
  obtain ⟨hs₁, hs₂⟩ := zipWith_merge_absorbs hstack
  exact ⟨⟨hl₁, hs₁⟩, ⟨hl₂, hs₂⟩⟩

/-- What absorbs two frames absorbs their join. -/
theorem Absorbs.merge {f g h merged : Frame} {changed : Bool} (hf : h.Absorbs f)
    (hg : h.Absorbs g) (hmerge : f.merge g = .ok (merged, changed)) : h.Absorbs merged := by
  obtain ⟨-, -, rfl, -⟩ := merge_eq_ok_iff.mp hmerge
  rw [absorbs_iff] at *
  exact ⟨forall₂_absorbs_zipWith hf.1 hg.1, forall₂_absorbs_zipWith hf.2 hg.2⟩

end Frame

end SymbolicFrames
