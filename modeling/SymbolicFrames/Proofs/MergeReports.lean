-- What a join of two frames reports. It can be done in place, value by value, with a flag that
-- is raised when a value changes. Main statement: it fails only on frames of another shape and
-- leaves them alone, and the flag is raised exactly if the frame is another one afterwards, so
-- that a frame which has once been joined in never raises it again.
import SymbolicFrames.Proofs.JoinOrder

namespace SymbolicFrames

/-! ## Joining in place -/

/-- Joins values into others, one after the other. The flag is raised by the first that
changes, and stays up. -/
def mergeRow (changed : Bool) : List Value → List Value → List Value × Bool
  | v :: vs, w :: ws =>
    if v.merge w = v then
      let (rest, changed) := mergeRow changed vs ws
      (v :: rest, changed)
    else
      let (rest, changed) := mergeRow true vs ws
      (v.merge w :: rest, changed)
  | vs, _ => (vs, changed)

theorem mergeRow_eq {vs ws : List Value} (hlen : vs.length = ws.length) (changed : Bool) :
    mergeRow changed vs ws =
      (List.zipWith Value.merge vs ws,
        changed || decide (List.zipWith Value.merge vs ws ≠ vs)) := by
  induction vs generalizing ws changed with
  | nil => simp [mergeRow]
  | cons v vs ih =>
    cases ws with
    | nil => simp at hlen
    | cons w ws =>
      have hrest := ih (Nat.add_right_cancel hlen)
      rw [mergeRow, List.zipWith_cons_cons]
      by_cases hv : v.merge w = v
      · rw [if_pos hv, hrest, hv]
        simp
      · rw [if_neg hv, hrest]
        simp [hv]

namespace Frame

variable {f g merged : Frame}

/-- The join done in place: what becomes of the first frame, and what is reported. The locals
come first and then the stack, under one flag. -/
def mergeInPlace (f g : Frame) : Frame × Except Fault Bool :=
  if f.stack.length ≠ g.stack.length then
    (f, .error (.incompatibleHeights f.stack.length g.stack.length))
  else if f.locals.length ≠ g.locals.length then
    (f, .error (.internal .localCounts))
  else
    let (locals, changed) := mergeRow false f.locals g.locals
    let (stack, changed) := mergeRow changed f.stack g.stack
    ({ f with locals, stack }, .ok changed)

/-- A frame differs from another with the same limit in its locals or on its stack. -/
theorem join_ne_iff : f.join g ≠ f ↔
    List.zipWith Value.merge f.locals g.locals ≠ f.locals ∨
      List.zipWith Value.merge f.stack g.stack ≠ f.stack := by
  obtain ⟨locals, stack, maxStack⟩ := f
  simp only [join, ne_eq, Frame.mk.injEq, and_true]
  exact Decidable.not_and_iff_or_not

/-- One flag for all values tells whether the whole frame changed. -/
theorem mergeInPlace_eq (hstack : f.stack.length = g.stack.length)
    (hlocals : f.locals.length = g.locals.length) :
    f.mergeInPlace g = (f.join g, .ok (decide (f.join g ≠ f))) := by
  unfold mergeInPlace
  rw [if_neg (not_not_intro hstack), if_neg (not_not_intro hlocals)]
  simp only [mergeRow_eq hlocals, mergeRow_eq hstack, join_ne_iff, Bool.false_or, Bool.decide_or]
  rfl

theorem merge_eq_mergeInPlace (f g : Frame) :
    f.merge g = (f.mergeInPlace g).2.map fun changed => ((f.mergeInPlace g).1, changed) := by
  by_cases hstack : f.stack.length = g.stack.length
  · by_cases hlocals : f.locals.length = g.locals.length
    · rw [mergeInPlace_eq hstack hlocals, merge_eq_ok_iff.mpr ⟨hstack, hlocals, rfl, rfl⟩]
      rfl
    · simp [merge, mergeInPlace, hstack, hlocals, Except.map]
  · simp [merge, mergeInPlace, hstack, Except.map]

/-- A join that fails leaves the frame as it was. -/
theorem mergeInPlace_of_error {fault : Fault} (h : (f.mergeInPlace g).2 = .error fault) :
    (f.mergeInPlace g).1 = f := by
  unfold mergeInPlace at h ⊢
  split
  · rfl
  · rename_i hstack
    rw [if_neg hstack] at h
    split
    · rfl
    · rename_i hlocals
      rw [if_neg hlocals] at h
      cases h

theorem mergeInPlace_of_merge_eq_ok {changed : Bool} (h : f.merge g = .ok (merged, changed)) :
    f.mergeInPlace g = (merged, .ok changed) := by
  obtain ⟨hstack, hlocals, rfl, rfl⟩ := merge_eq_ok_iff.mp h
  exact mergeInPlace_eq hstack hlocals

theorem mergeInPlace_of_merge_eq_error {fault : Fault} (h : f.merge g = .error fault) :
    f.mergeInPlace g = (f, .error fault) := by
  rw [merge_eq_mergeInPlace] at h
  rcases hreport : (f.mergeInPlace g).2 with fault' | changed
  · rw [hreport] at h
    cases h
    exact Prod.ext (mergeInPlace_of_error hreport) hreport
  · rw [hreport] at h
    cases h

/-! ## Joining again -/

/-- A frame that others have been joined into absorbs all of them, however long ago. -/
theorem mergeAll_absorbs {gs : List Frame} (h : f.mergeAll gs = .ok merged) :
    merged.Absorbs f ∧ ∀ g ∈ gs, merged.Absorbs g := by
  induction gs generalizing f with
  | nil =>
    cases h
    exact ⟨absorbs_self merged, fun g hg => absurd hg List.not_mem_nil⟩
  | cons g rest ih =>
    obtain ⟨⟨next, changed⟩, hmerge, hrest⟩ := bind_eq_ok h
    obtain ⟨hnext, hlater⟩ := ih hrest
    obtain ⟨hf, hg⟩ := merge_absorbs hmerge
    refine ⟨hnext.trans hf, ?_⟩
    intro k hk
    rcases List.mem_cons.mp hk with rfl | hk
    · exact hnext.trans hg
    · exact hlater k hk

end Frame

/-- A join reports exactly what it does. It is the one done in place. It fails if the stacks
differ in height or else the numbers of locals differ, and then the frame is as it was.
Otherwise the flag tells whether the frame is another one, which has the same shape and the
join of two values in each place. A frame that was joined in once, at whatever time in a row
of joins, can be joined in again without a change. -/
theorem merge_reports_exactly_the_changes (f g : Frame) :
    f.merge g = (f.mergeInPlace g).2.map (fun changed => ((f.mergeInPlace g).1, changed)) ∧
    (∀ fault, (f.mergeInPlace g).2 = .error fault → (f.mergeInPlace g).1 = f) ∧
    (∀ fault, f.merge g = .error fault ↔
      (f.stack.length ≠ g.stack.length ∧
        fault = .incompatibleHeights f.stack.length g.stack.length) ∨
      (f.stack.length = g.stack.length ∧ f.locals.length ≠ g.locals.length ∧
        fault = .internal .localCounts)) ∧
    (∀ merged changed, f.merge g = .ok (merged, changed) →
      (changed = true ↔ merged ≠ f) ∧ f.SameShape merged ∧
      (∀ place v w, f.valueAt? place = some v → g.valueAt? place = some w →
        merged.valueAt? place = some (v.merge w)) ∧
      merged.merge g = .ok (merged, false)) ∧
    ∀ gs merged, f.mergeAll gs = .ok merged → ∀ h ∈ gs, merged.merge h = .ok (merged, false) := by
  refine ⟨f.merge_eq_mergeInPlace g, fun fault => Frame.mergeInPlace_of_error,
    fun fault => Frame.merge_eq_error_iff, ?_, ?_⟩
  · intro merged changed h
    have habsorbs := (Frame.merge_absorbs h).2
    obtain ⟨hstack, hlocals, rfl, rfl⟩ := Frame.merge_eq_ok_iff.mp h
    exact ⟨decide_eq_true_iff, Frame.sameShape_join hlocals hstack,
      fun place v w => Frame.valueAt?_join, habsorbs⟩
  · intro gs merged h k hk
    exact (Frame.mergeAll_absorbs h).2 k hk

/-! ## A zero with either sign -/

/-- A zero of this sign in one local, and in the next what is not a number. -/
def zeroBesideNan (negative : Bool) : Frame :=
  { locals := [.float (some (.zero .single negative)), .float (some (.nan .single))],
    stack := [], maxStack := 1 }

/-- The zeros are equal as numbers but differ in their bits, so nothing is left of them. What
is not a number equals no number, but it has the same bits and stays. -/
theorem zeros_of_either_sign_change_the_frame_once :
    let merged := { zeroBesideNan false with locals := [.top, .float (some (.nan .single))] }
    (zeroBesideNan false).merge (zeroBesideNan true) = .ok (merged, true) ∧
      merged ≠ zeroBesideNan false ∧
      merged.merge (zeroBesideNan true) = .ok (merged, false) ∧
      (zeroBesideNan false).mergeAll [zeroBesideNan true, zeroBesideNan false] = .ok merged ∧
      merged.merge (zeroBesideNan false) = .ok (merged, false) ∧
      ((zeroBesideNan false).mergeInPlace ((zeroBesideNan true).handler .null)).2
        = .error (.incompatibleHeights 0 1) ∧
      ((zeroBesideNan false).mergeInPlace ((zeroBesideNan true).handler .null)).1
        = zeroBesideNan false := by
  intro merged
  obtain ⟨-, -, -, hchanged, hrow⟩ :=
    merge_reports_exactly_the_changes (zeroBesideNan false) (zeroBesideNan true)
  obtain ⟨-, hkept, -⟩ := merge_reports_exactly_the_changes (zeroBesideNan false)
    ((zeroBesideNan true).handler .null)
  have hmerge : (zeroBesideNan false).merge (zeroBesideNan true) = .ok (merged, true) := by decide
  have hall : (zeroBesideNan false).mergeAll [zeroBesideNan true, zeroBesideNan false]
      = .ok merged := by decide
  have hfails : ((zeroBesideNan false).mergeInPlace ((zeroBesideNan true).handler .null)).2
      = .error (.incompatibleHeights 0 1) := by decide
  obtain ⟨hflag, -, -, hagain⟩ := hchanged merged true hmerge
  exact ⟨hmerge, hflag.mp rfl, hagain, hall, hrow _ merged hall _ (by simp), hfails,
    hkept _ hfails⟩

end SymbolicFrames
