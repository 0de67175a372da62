-- The worklist from call to call. Frames are joined in and blocks taken off the queue in place,
-- in any order, and a frame may be refused. Main statement: after any calls the queue, its marks
-- and the recorded frames agree, and a block is in the queue exactly if its frame was set or
-- changed after the block was last taken off.
import SymbolicFrames.Proofs.MergeReports
import SymbolicFrames.Proofs.Worklists

namespace SymbolicFrames

namespace Worklist

/-! ## Operations in place -/

/-- Overwrites the frame of a block, without a word to the queue. -/
def write (w : Worklist) (b : BlockId) (f : Frame) : Worklist :=
  { w with entries := w.entries.setIfInBounds b (some f) }

/-- A frame joined into the one of its block where that stands: what becomes of the worklist,
and what is reported. The block is queued after the join, and only if its frame changed. -/
def propagateInPlace (w : Worklist) (d : Delivery) : Worklist × Except Fault Bool :=
  match w.entries[d.target]? with
  | none => (w, .error (.internal .unknownBlock))
  | some none => ((w.write d.target d.frame).enqueue d.target, .ok true)
  | some (some current) =>
    let (merged, report) := current.mergeInPlace d.frame
    match report with
    | .error fault => (w.write d.target merged, .error fault)
    | .ok true => ((w.write d.target merged).enqueue d.target, .ok true)
    | .ok false => (w.write d.target merged, .ok false)

/-- Takes blocks off the queue, each with its mark, up to the first that has a frame. -/
def takeFrom (entries : Array (Option Frame)) :
    List BlockId → Array Bool → Worklist × Option (BlockId × Frame)
  | [], queued => (⟨entries, [], queued⟩, none)
  | b :: queue, queued =>
    let cleared := queued.setIfInBounds b false
    match entries[b]? with
    | some (some f) => (⟨entries, queue, cleared⟩, some (b, f))
    | _ => takeFrom entries queue cleared

/-- The next block with its frame, and the worklist that is left, also if there is none. -/
def popInPlace (w : Worklist) : Worklist × Option (BlockId × Frame) :=
  takeFrom w.entries w.queue w.queued

theorem write_eq_self {w : Worklist} {b : BlockId} {f : Frame}
    (h : w.entries[b]? = some (some f)) : w.write b f = w := by
  have hsame : w.entries.setIfInBounds b (some f) = w.entries := by
    apply Array.ext_getElem?
    intro c
    by_cases hbc : b = c
    · subst hbc
      rw [Array.getElem?_setIfInBounds_self_of_lt (Array.getElem?_eq_some_iff.mp h).1, h]
    · rw [Array.getElem?_setIfInBounds_ne hbc]
  rw [write, hsame]

/-- In place or not, the same frames are refused, and the others lead to the same worklist. -/
theorem propagateInPlace_cases (w : Worklist) (d : Delivery) :
    (∃ fault, w.propagate d = .error fault ∧ w.propagateInPlace d = (w, .error fault)) ∨
    ∃ next changed, w.propagate d = .ok (next, changed) ∧
      w.propagateInPlace d = (next, .ok changed) := by
  rcases hentry : w.entries[d.target]? with _ | _ | current
  · left
    refine ⟨.internal .unknownBlock, by simp only [propagate, hentry], ?_⟩
    simp only [propagateInPlace, hentry]
  · right
    refine ⟨w.setEntry d.target d.frame, true, by simp only [propagate, hentry], ?_⟩
    simp only [propagateInPlace, hentry]
    rfl
  · rcases hmerge : current.merge d.frame with fault | ⟨merged, _ | _⟩
    · left
      refine ⟨fault, by simp only [propagate, hentry, hmerge], ?_⟩
      simp only [propagateInPlace, hentry, Frame.mergeInPlace_of_merge_eq_error hmerge,
        write_eq_self hentry]
    · -- The frame is absorbed, so what is written is what was there.
      right
      refine ⟨w, false, by simp only [propagate, hentry, hmerge], ?_⟩
      simp only [propagateInPlace, hentry, Frame.mergeInPlace_of_merge_eq_ok hmerge,
        Frame.eq_of_merge_unchanged hmerge, write_eq_self hentry]
    · right
      refine ⟨w.setEntry d.target merged, true, by simp only [propagate, hentry, hmerge], ?_⟩
      simp only [propagateInPlace, hentry, Frame.mergeInPlace_of_merge_eq_ok hmerge]
      rfl

theorem propagate_eq_propagateInPlace (w : Worklist) (d : Delivery) :
    w.propagate d =
      (w.propagateInPlace d).2.map fun changed => ((w.propagateInPlace d).1, changed) := by
  rcases w.propagateInPlace_cases d with ⟨fault, h, hplace⟩ | ⟨next, changed, h, hplace⟩
  · rw [h, hplace]
    rfl
  · rw [h, hplace]
    rfl

/-- A frame that is refused leaves the worklist as it was. -/
theorem propagateInPlace_refused {w : Worklist} {d : Delivery} {fault : Fault}
    (h : (w.propagateInPlace d).2 = .error fault) : (w.propagateInPlace d).1 = w := by
  rcases w.propagateInPlace_cases d with ⟨_, -, hplace⟩ | ⟨next, changed, -, hplace⟩
  · rw [hplace]
  · rw [hplace] at h
    cases h

theorem popFrom_eq_takeFrom (entries : Array (Option Frame)) (queue : List BlockId)
    (queued : Array Bool) :
    popFrom entries queue queued = (takeFrom entries queue queued).2.map
      fun next => (next.1, next.2, (takeFrom entries queue queued).1) := by
  induction queue generalizing queued with
  | nil => rfl
  | cons b rest ih =>
    rcases hentry : entries[b]? with _ | _ | f
    · simp only [popFrom, takeFrom, hentry]
      exact ih _
    · simp only [popFrom, takeFrom, hentry]
      exact ih _
    · simp only [popFrom, takeFrom, hentry]
      rfl

theorem pop?_eq_popInPlace (w : Worklist) :
    w.pop? = w.popInPlace.2.map fun next => (next.1, next.2, w.popInPlace.1) :=
  popFrom_eq_takeFrom w.entries w.queue w.queued

/-- Every block in the queue has a frame, so none is passed over. -/
theorem popInPlace_of_queue_eq_cons {w : Worklist} (h : w.Sound) {b : BlockId}
    {rest : List BlockId} (hqueue : w.queue = b :: rest) :
    ∃ f, w.frameAt? b = some f ∧
      w.popInPlace = (⟨w.entries, rest, w.queued.setIfInBounds b false⟩, some (b, f)) := by
  obtain ⟨f, hf⟩ := h.reached (hqueue ▸ List.mem_cons_self)
  refine ⟨f, hf, ?_⟩
  rw [frameAt?_eq_some_iff] at hf
  simp [popInPlace, hqueue, takeFrom, hf]

theorem popInPlace_of_queue_eq_nil {w : Worklist} (hqueue : w.queue = []) :
    w.popInPlace = (w, none) := by
  obtain ⟨entries, queue, queued⟩ := w
  subst hqueue
  rfl

/-! ## Calls -/

/-- What a worklist can be asked to do. -/
inductive Call where
  | propagate (d : Delivery)
  | pop

/-- One call: the worklist it found, the one it left, and the block it took off the queue. -/
structure Turn where
  before : Worklist
  after : Worklist
  popped : Option BlockId

/-- A frame that is refused is as good a call as any other. -/
def perform (w : Worklist) : Call → Turn
  | .propagate d => ⟨w, (w.propagateInPlace d).1, none⟩
  | .pop => ⟨w, w.popInPlace.1, w.popInPlace.2.map Prod.fst⟩

/-- The calls one after the other. -/
def turns (w : Worklist) : List Call → List Turn
  | [] => []
  | call :: rest => w.perform call :: (w.perform call).after.turns rest

/-- What the calls leave. -/
def afterAll (w : Worklist) : List Call → Worklist
  | [] => w
  | call :: rest => (w.perform call).after.afterAll rest

/-- The call set the frame of the block, or changed it. -/
def Turn.Changes (t : Turn) (b : BlockId) : Prop := t.after.frameAt? b ≠ t.before.frameAt? b

/-- One of the calls changed the frame of the block, and none after it took the block off. -/
def ChangedSincePopped (turns : List Turn) (b : BlockId) : Prop :=
  ∃ earlier t later, turns = earlier ++ t :: later ∧ t.Changes b ∧
    ∀ t' ∈ later, t'.popped ≠ some b

theorem changedSincePopped_nil (b : BlockId) : ¬ ChangedSincePopped [] b := by
  rintro ⟨earlier, t, later, h, -⟩
  simp at h

theorem changedSincePopped_cons {t : Turn} {later : List Turn} {b : BlockId} :
    ChangedSincePopped (t :: later) b ↔
      (t.Changes b ∧ ∀ t' ∈ later, t'.popped ≠ some b) ∨ ChangedSincePopped later b := by
  constructor
  · rintro ⟨earlier, t₁, later₁, h, hchanges, hlater⟩
    rcases List.cons_eq_append_iff.mp h with ⟨-, htail⟩ | ⟨earlier₁, -, htail⟩
    · obtain ⟨rfl, rfl⟩ := List.cons.inj htail
      exact Or.inl ⟨hchanges, hlater⟩
    · exact Or.inr ⟨earlier₁, t₁, later₁, htail, hchanges, hlater⟩
  · rintro (⟨hchanges, hlater⟩ | ⟨earlier, t₁, later₁, rfl, hchanges, hlater⟩)
    · exact ⟨[], t, later, rfl, hchanges, hlater⟩
    · exact ⟨t :: earlier, t₁, later₁, rfl, hchanges, hlater⟩

/-! ## One call -/

/-- A call does nothing, or joins a frame in, or takes the first block off the queue. -/
theorem perform_cases {w : Worklist} (h : w.Sound) (call : Call) :
    w.perform call = ⟨w, w, none⟩ ∨
    (∃ d next changed, w.propagate d = .ok (next, changed) ∧
      w.perform call = ⟨w, next, none⟩) ∨
    ∃ b rest, w.queue = b :: rest ∧
      w.perform call = ⟨w, ⟨w.entries, rest, w.queued.setIfInBounds b false⟩, some b⟩ := by
  cases call with
  | propagate d =>
    rcases w.propagateInPlace_cases d with ⟨fault, -, hplace⟩ | ⟨next, changed, h, hplace⟩
    · left
      rw [perform, hplace]
    · refine Or.inr (Or.inl ⟨d, next, changed, h, ?_⟩)
      rw [perform, hplace]
  | pop =>
    rcases hqueue : w.queue with _ | ⟨b, rest⟩
    · left
      rw [perform, popInPlace_of_queue_eq_nil hqueue]
      rfl
    · obtain ⟨f, -, hpop⟩ := popInPlace_of_queue_eq_cons h hqueue
      refine Or.inr (Or.inr ⟨b, rest, rfl, ?_⟩)
      rw [perform, hpop]
      rfl

theorem sound_perform {w : Worklist} (h : w.Sound) (call : Call) :
    (w.perform call).after.Sound := by
  rcases perform_cases h call with hcall | ⟨d, next, changed, hpropagate, hcall⟩ |
    ⟨b, rest, hqueue, hcall⟩
  · rw [hcall]
    exact h
  · rw [hcall]
    exact sound_propagate h hpropagate
  · rw [hcall]
    exact sound_popped h hqueue

theorem size_perform {w : Worklist} (h : w.Sound) (call : Call) :
    (w.perform call).after.entries.size = w.entries.size := by
  rcases perform_cases h call with hcall | ⟨d, next, changed, hpropagate, hcall⟩ |
    ⟨b, rest, hqueue, hcall⟩
  · rw [hcall]
  · rw [hcall]
    exact (grows_propagate h hpropagate).size_eq
  · rw [hcall]

/-- The block of a new frame joins the queue, and no other does. -/
theorem mem_queue_setEntry_iff {w : Worklist} (hw : w.Sound) {b : BlockId} {f : Frame}
    (hb : b < w.entries.size) (hnew : w.frameAt? b ≠ some f) (c : BlockId) :
    c ∈ (w.setEntry b f).queue ↔
      (w.setEntry b f).frameAt? c ≠ w.frameAt? c ∨ c ∈ w.queue := by
  rw [mem_queue_setEntry hw, frameAt?_setEntry hb]
  by_cases hc : c = b
  · simp [hc, hnew.symm]
  · simp [hc]

theorem mem_queue_propagate {w next : Worklist} (hw : w.Sound) {d : Delivery} {changed : Bool}
    (h : w.propagate d = .ok (next, changed)) (b : BlockId) :
    b ∈ next.queue ↔ next.frameAt? b ≠ w.frameAt? b ∨ b ∈ w.queue := by
  rcases propagate_cases h with ⟨hblank, rfl⟩ | ⟨current, merged, hcurrent, hmerge, rfl⟩ |
    ⟨_, _, _, rfl⟩
  · apply mem_queue_setEntry_iff hw (lt_size_of_blank hblank)
    rw [frameAt?_of_blank hblank]
    exact Option.some_ne_none _ ∘ Eq.symm
  · apply mem_queue_setEntry_iff hw (lt_size_of_frameAt? hcurrent)
    obtain ⟨-, -, rfl, hchanged⟩ := Frame.merge_eq_ok_iff.mp hmerge
    rw [hcurrent, ne_eq, Option.some.injEq]
    exact Ne.symm (of_decide_eq_true hchanged.symm)
  · simp

/-- A call puts into the queue the blocks whose frame it changes, and takes off the one that it
gives back. -/
theorem mem_queue_perform {w : Worklist} (hw : w.Sound) (call : Call) (b : BlockId) :
    b ∈ (w.perform call).after.queue ↔
      (w.perform call).Changes b ∨ b ∈ w.queue ∧ (w.perform call).popped ≠ some b := by
  rcases perform_cases hw call with hcall | ⟨d, next, changed, hpropagate, hcall⟩ |
    ⟨c, rest, hqueue, hcall⟩
  · simp [hcall, Turn.Changes]
  · rw [hcall, mem_queue_propagate hw hpropagate]
    simp [Turn.Changes]
  · -- The block that is taken off stood in the queue once.
    have hnodup := hw.nodup
    rw [hqueue, List.nodup_cons] at hnodup
    have hsame : ¬ (w.perform call).Changes b := by
      rw [hcall]
      exact not_not_intro rfl
    rw [or_iff_right hsame, hcall, hqueue, List.mem_cons, ne_eq, Option.some.injEq]
    constructor
    · intro hb
      exact ⟨Or.inr hb, fun hcb => hnodup.1 (hcb ▸ hb)⟩
    · rintro ⟨hb | hb, hcb⟩
      · exact absurd hb.symm hcb
      · exact hb

/-! ## Many calls -/

theorem sound_afterAll {w : Worklist} (h : w.Sound) (calls : List Call) :
    (w.afterAll calls).Sound := by
  induction calls generalizing w with
  | nil => exact h
  | cons call rest ih => exact ih (sound_perform h call)

theorem size_afterAll {w : Worklist} (h : w.Sound) (calls : List Call) :
    (w.afterAll calls).entries.size = w.entries.size := by
  induction calls generalizing w with
  | nil => rfl
  | cons call rest ih => exact (ih (sound_perform h call)).trans (size_perform h call)

/-- A block is in the queue after the calls if one of them put it there, or if it was there
before them, and if none has taken it off since. -/
theorem mem_queue_afterAll {w : Worklist} (h : w.Sound) (calls : List Call) (b : BlockId) :
    b ∈ (w.afterAll calls).queue ↔
      ChangedSincePopped (w.turns calls) b ∨
        b ∈ w.queue ∧ ∀ t ∈ w.turns calls, t.popped ≠ some b := by
  induction calls generalizing w with
  | nil => simp [afterAll, turns, changedSincePopped_nil]
  | cons call rest ih =>
    rw [afterAll, ih (sound_perform h call), mem_queue_perform h call, turns,
      changedSincePopped_cons, List.forall_mem_cons]
    tauto

end Worklist

/-- Whatever is called, the queue, its marks and the frames stay in step. The operations are
those done in place, where a frame that is refused leaves everything as it was. After any calls
no block stands in the queue twice, the marks tell which blocks do, each of them has a frame, so
that the first is the one taken off, and a block stands there exactly if its frame was set or
changed after it was last taken off. -/
theorem queue_holds_exactly_the_changed_blocks (blocks : Nat) (calls : List Worklist.Call) :
    (∀ (w : Worklist) d,
      w.propagate d =
        (w.propagateInPlace d).2.map (fun changed => ((w.propagateInPlace d).1, changed)) ∧
      ∀ fault, (w.propagateInPlace d).2 = .error fault → (w.propagateInPlace d).1 = w) ∧
    (∀ w : Worklist, w.pop? = w.popInPlace.2.map fun next => (next.1, next.2, w.popInPlace.1)) ∧
    let w := (Worklist.ofSize blocks).afterAll calls
    w.queue.Nodup ∧
    (w.queued.size = blocks ∧ ∀ b, w.queued[b]? = some true ↔ b ∈ w.queue) ∧
    (∀ b ∈ w.queue, b < blocks ∧ ∃ f, w.frameAt? b = some f) ∧
    (∀ b rest, w.queue = b :: rest → ∃ f, w.frameAt? b = some f ∧
      w.popInPlace = (⟨w.entries, rest, w.queued.setIfInBounds b false⟩, some (b, f))) ∧
    ∀ b, b ∈ w.queue ↔
      Worklist.ChangedSincePopped ((Worklist.ofSize blocks).turns calls) b := by
  have hstart := Worklist.sound_ofSize blocks
  have hsound := Worklist.sound_afterAll hstart calls
  have hsize : ((Worklist.ofSize blocks).afterAll calls).entries.size = blocks := by
    rw [Worklist.size_afterAll hstart]
    exact Array.size_replicate
  refine ⟨fun w d => ⟨w.propagate_eq_propagateInPlace d,
    fun fault => Worklist.propagateInPlace_refused⟩, Worklist.pop?_eq_popInPlace,
    hsound.nodup, ⟨hsound.size_eq.trans hsize, fun b => hsound.queued_iff⟩, ?_, ?_, ?_⟩
  · intro b hb
    obtain ⟨f, hf⟩ := hsound.reached hb
    exact ⟨hsize ▸ Worklist.lt_size_of_frameAt? hf, f, hf⟩
  · intro b rest hqueue
    exact Worklist.popInPlace_of_queue_eq_cons hsound hqueue
  · intro b
    rw [Worklist.mem_queue_afterAll hstart]
    simp [Worklist.ofSize]

/-! ## A block that comes back -/

/-- A number in the only local. -/
def numbered (n : BitVec 32) : Frame :=
  { locals := [.int (some n)], stack := [], maxStack := 1 }

/-- A block is reached and taken off the queue, and then another frame is joined into its own.
Two frames are refused, one for its stack and one because there is no such block. -/
def comesBack : List Worklist.Call :=
  [.propagate ⟨1, numbered 1⟩, .pop, .propagate ⟨1, numbered 2⟩,
    .propagate ⟨1, (numbered 3).handler .null⟩, .propagate ⟨7, numbered 1⟩]

/-- The block is in the queue once more, for the frame that was changed. -/
theorem block_comes_back_into_the_queue :
    let w := (Worklist.ofSize 2).afterAll comesBack
    w = ⟨#[none, some ⟨[.top], [], 1⟩], [1], #[false, true]⟩ ∧
      Worklist.ChangedSincePopped ((Worklist.ofSize 2).turns comesBack) 1 ∧
      (w.propagateInPlace ⟨1, (numbered 3).handler .null⟩).2
        = .error (.incompatibleHeights 0 1) ∧
      (w.propagateInPlace ⟨1, (numbered 3).handler .null⟩).1 = w ∧
      ∃ f, w.frameAt? 1 = some f ∧
        w.popInPlace = (⟨w.entries, [], w.queued.setIfInBounds 1 false⟩, some (1, f)) := by
  intro w
  obtain ⟨hpropagate, -, -, -, -, hpop, hqueue⟩ :=
    queue_holds_exactly_the_changed_blocks 2 comesBack
  have hw : w = ⟨#[none, some ⟨[.top], [], 1⟩], [1], #[false, true]⟩ := by decide +kernel
  have hfails : (w.propagateInPlace ⟨1, (numbered 3).handler .null⟩).2
      = .error (.incompatibleHeights 0 1) := by decide +kernel
  have hone : w.queue = [1] := congrArg Worklist.queue hw
  exact ⟨hw, (hqueue 1).mp (hone ▸ List.mem_cons_self), hfails, (hpropagate w _).2 _ hfails,
    hpop 1 [] hone⟩

end SymbolicFrames
