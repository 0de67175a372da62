-- Joining the frames of two paths that meet. Main statement: a join that changes a frame
-- lowers its rank, so a frame can only be changed so many times.
import SymbolicFrames.Frame.Basic

namespace SymbolicFrames

namespace Frame

/-- What holds in both frames, slot by slot. -/
def join (f g : Frame) : Frame :=
  { f with
    locals := List.zipWith Value.merge f.locals g.locals
    stack := List.zipWith Value.merge f.stack g.stack }

/-- The join with another frame of the same shape, and whether it differs from the first. -/
def merge (f g : Frame) : Except Fault (Frame × Bool) :=
  if f.stack.length ≠ g.stack.length then
    .error (.incompatibleHeights f.stack.length g.stack.length)
  else if f.locals.length ≠ g.locals.length then
    .error (.internal .localCounts)
  else
    .ok (f.join g, decide (f.join g ≠ f))

/-! ## Rank -/

def rankSum (values : List Value) : Nat := total Value.rank values

/-- How often a merge can still change the frame, at most. -/
def rank (f : Frame) : Nat := rankSum f.locals + rankSum f.stack

theorem rankSum_zipWith_merge_le (vs ws : List Value) :
    rankSum (List.zipWith Value.merge vs ws) ≤ rankSum vs := by
  induction vs generalizing ws with
  | nil => simp [rankSum]
  | cons v vs ih =>
    cases ws with
    | nil => simp [rankSum]
    | cons w ws =>
      have h := ih ws
      have hv := Value.rank_merge_le v w
      simp only [rankSum, List.zipWith_cons_cons, total_cons] at h ⊢
      omega

theorem rankSum_zipWith_merge_lt {vs ws : List Value} (hlen : vs.length = ws.length)
    (h : List.zipWith Value.merge vs ws ≠ vs) :
    rankSum (List.zipWith Value.merge vs ws) < rankSum vs := by
  induction vs generalizing ws with
  | nil => simp at h
  | cons v vs ih =>
    cases ws with
    | nil => simp at hlen
    | cons w ws =>
      simp only [List.length_cons, Nat.add_right_cancel_iff] at hlen
      simp only [List.zipWith_cons_cons, ne_eq, List.cons.injEq, not_and] at h
      simp only [rankSum, List.zipWith_cons_cons, total_cons]
      by_cases hv : v.merge w = v
      · have := ih hlen (h hv)
        simp only [rankSum] at this
        rw [hv]
        omega
      · have h₁ := Value.rank_merge_lt hv
        have h₂ := rankSum_zipWith_merge_le vs ws
        simp only [rankSum] at h₂
        omega

theorem rank_lt_of_merge_changed {f g merged : Frame} (h : f.merge g = .ok (merged, true)) :
    merged.rank < f.rank := by
  unfold merge at h
  split at h
  · contradiction
  · rename_i hstack
    split at h
    · contradiction
    · rename_i hlocals
      simp only [Except.ok.injEq, Prod.mk.injEq, decide_eq_true_eq] at h
      obtain ⟨rfl, hne⟩ := h
      simp only [Decidable.not_not] at hstack hlocals
      have h₁ := rankSum_zipWith_merge_le f.locals g.locals
      have h₂ := rankSum_zipWith_merge_le f.stack g.stack
      simp only [rank, join]
      by_cases hl : List.zipWith Value.merge f.locals g.locals = f.locals
      · by_cases hs : List.zipWith Value.merge f.stack g.stack = f.stack
        · exact absurd (by simp [join, hl, hs]) hne
        · have := rankSum_zipWith_merge_lt hstack hs
          omega
      · have := rankSum_zipWith_merge_lt hlocals hl
        omega

end Frame

end SymbolicFrames
