-- The frames with which control enters the blocks, and the blocks that are to be visited
-- because their frame has changed, first come, first served. Main statement: whatever frames
-- are delivered, either nothing changes or the worklist has fewer changes left in it.
import SymbolicFrames.Analysis.Report
import SymbolicFrames.Frame.Merge

namespace SymbolicFrames

structure Worklist where
  /-- The frame on entry to each block that has been reached. -/
  entries : Array (Option Frame)
  queue : List BlockId
  /-- Which blocks are in the queue. -/
  queued : Array Bool
deriving DecidableEq

/-- A frame on its way to a block. -/
structure Delivery where
  target : BlockId
  frame : Frame
deriving DecidableEq

namespace Worklist

/-- Nothing reached yet. -/
def ofSize (blocks : Nat) : Worklist :=
  { entries := Array.replicate blocks none
    queue := []
    queued := Array.replicate blocks false }

/-! ## Operations -/

/-- A block stands in the queue once at most. -/
def enqueue (w : Worklist) (block : BlockId) : Worklist :=
  if w.queued[block]? = some true then
    w
  else
    { w with
      queue := w.queue ++ [block]
      queued := w.queued.setIfInBounds block true }

/-- A new frame for a block, which is then to be visited. -/
def setEntry (w : Worklist) (block : BlockId) (frame : Frame) : Worklist :=
  { w with entries := w.entries.setIfInBounds block (some frame) }.enqueue block

/-- Joins a frame into the one recorded for its block, and tells whether that changed it. -/
def propagate (w : Worklist) (d : Delivery) : Except Fault (Worklist × Bool) :=
  match w.entries[d.target]? with
  | none => .error (.internal .unknownBlock)
  | some none => .ok (w.setEntry d.target d.frame, true)
  | some (some current) =>
    match current.merge d.frame with
    | .error fault => .error fault
    | .ok (merged, true) => .ok (w.setEntry d.target merged, true)
    | .ok (_, false) => .ok (w, false)

/-- Propagates one frame after the other, up to the first that cannot be joined. -/
def deliver (w : Worklist) : List Delivery → Report Failure Worklist
  | [] => .success w
  | d :: rest =>
    match w.propagate d with
    | .error fault => .failure (.blockEntry d.target fault)
    | .ok (next, changed) =>
      (next.deliver rest).after (if changed then [.entryChanged d.target] else [])

/-- The first block of a queue that has a frame, and what remains. -/
def popFrom (entries : Array (Option Frame)) :
    List BlockId → Array Bool → Option (BlockId × Frame × Worklist)
  | [], _ => none
  | block :: queue, queued =>
    let cleared := queued.setIfInBounds block false
    match entries[block]? with
    | some (some frame) => some (block, frame, ⟨entries, queue, cleared⟩)
    | _ => popFrom entries queue cleared

/-- The next block to visit with its frame, and what remains. Blocks without a frame are
passed over. -/
def pop? (w : Worklist) : Option (BlockId × Frame × Worklist) :=
  popFrom w.entries w.queue w.queued

/-! ## How much can still change -/

/-- Number of blocks not reached yet. -/
def blanks (w : Worklist) : Nat := w.entries.toList.countP Option.isNone

def entryRank : Option Frame → Nat
  | none => 0
  | some frame => frame.rank

/-- How often the frames recorded so far can still change. -/
def rank (w : Worklist) : Nat := total entryRank w.entries.toList

/-- Fewer blocks are blank, or as many and the frames recorded have fewer changes left. -/
def Lower (w' w : Worklist) : Prop :=
  w'.blanks < w.blanks ∨ (w'.blanks = w.blanks ∧ w'.rank < w.rank)

theorem Lower.trans {w₁ w₂ w₃ : Worklist} (h : Lower w₁ w₂) (h' : Lower w₂ w₃) :
    Lower w₁ w₃ := by
  unfold Lower at *
  omega

theorem same_or_lower_trans {w₁ w₂ w₃ : Worklist} (h : w₁ = w₂ ∨ Lower w₁ w₂)
    (h' : w₂ = w₃ ∨ Lower w₂ w₃) : w₁ = w₃ ∨ Lower w₁ w₃ := by
  rcases h with rfl | h
  · exact h'
  · rcases h' with rfl | h'
    · exact .inr h
    · exact .inr (h.trans h')

@[simp]
theorem entries_enqueue (w : Worklist) (block : BlockId) :
    (w.enqueue block).entries = w.entries := by
  unfold enqueue
  split <;> rfl

@[simp]
theorem entries_setEntry (w : Worklist) (block : BlockId) (frame : Frame) :
    (w.setEntry block frame).entries = w.entries.setIfInBounds block (some frame) := by
  simp [setEntry]

/-- Replacing one member of a list. -/
theorem total_set {α : Type} (f : α → Nat) {l : List α} {i : Nat} {old : α}
    (h : l[i]? = some old) (new : α) :
    total f (l.set i new) + f old = total f l + f new := by
  induction l generalizing i with
  | nil => simp at h
  | cons x xs ih =>
    cases i with
    | zero =>
      simp only [List.getElem?_cons_zero, Option.some.injEq] at h
      simp only [h, List.set_cons_zero, total_cons]
      omega
    | succ i =>
      simp only [List.getElem?_cons_succ] at h
      have := ih h
      simp only [List.set_cons_succ, total_cons]
      omega

theorem countP_set_of_getElem? {α : Type} (p : α → Bool) {l : List α} {i : Nat} {old : α}
    (h : l[i]? = some old) (new : α) :
    (l.set i new).countP p + (if p old then 1 else 0)
      = l.countP p + (if p new then 1 else 0) := by
  induction l generalizing i with
  | nil => simp at h
  | cons x xs ih =>
    cases i with
    | zero =>
      simp only [List.getElem?_cons_zero, Option.some.injEq] at h
      simp only [h, List.set_cons_zero, List.countP_cons]
      omega
    | succ i =>
      simp only [List.getElem?_cons_succ] at h
      have := ih h
      simp only [List.set_cons_succ, List.countP_cons]
      omega

/-- A block that is reached for the first time is blank no more. -/
theorem lower_setEntry_of_blank {w : Worklist} {block : BlockId} (frame : Frame)
    (h : w.entries[block]? = some none) : Lower (w.setEntry block frame) w := by
  have hlist : w.entries.toList[block]? = some none := by simpa using h
  have := countP_set_of_getElem? Option.isNone hlist (some frame)
  simp only [Option.isNone_none, Option.isNone_some, if_true, Bool.false_eq_true,
    if_false] at this
  left
  simp only [blanks, entries_setEntry, Array.toList_setIfInBounds]
  omega

/-- A recorded frame that changes has fewer changes left. -/
theorem lower_setEntry_of_rank_lt {w : Worklist} {block : BlockId} {current merged : Frame}
    (h : w.entries[block]? = some (some current)) (hlt : merged.rank < current.rank) :
    Lower (w.setEntry block merged) w := by
  have hlist : w.entries.toList[block]? = some (some current) := by simpa using h
  have h₁ := countP_set_of_getElem? Option.isNone hlist (some merged)
  have h₂ := total_set entryRank hlist (some merged)
  simp only [Option.isNone_some, Bool.false_eq_true, if_false] at h₁
  simp only [entryRank] at h₂
  right
  simp only [blanks, rank, entries_setEntry, Array.toList_setIfInBounds]
  exact ⟨by omega, by omega⟩

theorem propagate_same_or_lower {w next : Worklist} {d : Delivery} {changed : Bool}
    (h : w.propagate d = .ok (next, changed)) : next = w ∨ Lower next w := by
  unfold propagate at h
  split at h
  · contradiction
  · rename_i hblank
    simp only [Except.ok.injEq, Prod.mk.injEq] at h
    exact .inr (h.1 ▸ lower_setEntry_of_blank d.frame hblank)
  · rename_i current hcurrent
    split at h
    · contradiction
    · rename_i merged hmerge
      simp only [Except.ok.injEq, Prod.mk.injEq] at h
      exact .inr (h.1 ▸ lower_setEntry_of_rank_lt hcurrent
        (Frame.rank_lt_of_merge_changed hmerge))
    · simp only [Except.ok.injEq, Prod.mk.injEq] at h
      exact .inl h.1.symm

theorem deliver_same_or_lower {w next : Worklist} {ds : List Delivery}
    (h : (w.deliver ds).result = .ok next) : next = w ∨ Lower next w := by
  induction ds generalizing w with
  | nil =>
    simp only [deliver, Report.success, Except.ok.injEq] at h
    exact .inl h.symm
  | cons d rest ih =>
    unfold deliver at h
    split at h
    · contradiction
    · rename_i middle changed hstep
      exact same_or_lower_trans (ih h) (propagate_same_or_lower hstep)

theorem popFrom_eq_some {entries : Array (Option Frame)} {queue : List BlockId}
    {queued : Array Bool} {block : BlockId} {frame : Frame} {rest : Worklist}
    (h : popFrom entries queue queued = some (block, frame, rest)) :
    rest.entries = entries ∧ rest.queue.length < queue.length := by
  induction queue generalizing queued with
  | nil => contradiction
  | cons first others ih =>
    unfold popFrom at h
    split at h
    · simp only [Option.some.injEq, Prod.mk.injEq] at h
      obtain ⟨-, -, rfl⟩ := h
      simp
    · have := ih h
      exact ⟨this.1, Nat.lt_succ_of_lt this.2⟩

/-- What remains after a pop has the same frames and a shorter queue. -/
theorem pop?_eq_some {w rest : Worklist} {block : BlockId} {frame : Frame}
    (h : w.pop? = some (block, frame, rest)) :
    rest.entries = w.entries ∧ rest.queue.length < w.queue.length :=
  popFrom_eq_some h

/-- Once a block is taken, and whatever is delivered then, some frame has changed or one block
less waits. -/
theorem decreases_of_pop? {w rest next : Worklist} {block : BlockId} {frame : Frame}
    (hpop : w.pop? = some (block, frame, rest)) (hnext : next = rest ∨ Lower next rest) :
    Prod.Lex (· < ·) (Prod.Lex (· < ·) (· < ·)) (next.blanks, next.rank, next.queue.length)
      (w.blanks, w.rank, w.queue.length) := by
  obtain ⟨hentries, hqueue⟩ := pop?_eq_some hpop
  have hblanks : rest.blanks = w.blanks := by simp [blanks, hentries]
  have hrank : rest.rank = w.rank := by simp [rank, hentries]
  simp only [Prod.lex_def]
  rcases hnext with rfl | hlower
  · omega
  · unfold Lower at hlower
    omega

end Worklist

end SymbolicFrames
