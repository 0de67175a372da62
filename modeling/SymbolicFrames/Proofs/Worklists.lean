-- The laws of the worklist. Its queue and its marks always agree, a frame once taken in
-- stays absorbed whatever comes later, and a block whose frame has changed is in the queue.
import SymbolicFrames.Analysis.Worklist
import SymbolicFrames.Proofs.Joins

namespace SymbolicFrames

/-! ## Reports -/

namespace Report

variable {ε α β : Type}

theorem after_andThen (log : List Event) (r : Report ε α) (next : α → Report ε β) :
    (r.after log).andThen next = (r.andThen next).after log := by
  rcases r with ⟨events, error | value⟩ <;> simp [andThen, after]

/-- Only with what comes out does a report go on. -/
theorem andThen_congr {r : Report ε α} {next next' : α → Report ε β}
    (h : ∀ value, r.result = .ok value → next value = next' value) :
    r.andThen next = r.andThen next' := by
  unfold andThen
  split
  · rename_i value hvalue
    rw [h value hvalue]
  · rfl

/-- Going on without doing anything. -/
theorem andThen_success (r : Report ε α) : r.andThen .success = r := by
  rcases r with ⟨events, error | value⟩ <;> simp [andThen, after, success]

theorem success_andThen (value : α) (next : α → Report ε β) :
    (success value).andThen next = next value := by
  simp [success, andThen, after]

theorem failure_andThen (error : ε) (next : α → Report ε β) :
    (failure error).andThen next = failure error := rfl

theorem andThen_assoc {γ : Type} (r : Report ε α) (next : α → Report ε β)
    (last : β → Report ε γ) :
    (r.andThen next).andThen last = r.andThen fun value => (next value).andThen last := by
  rcases r with ⟨events, error | value⟩
  · rfl
  · exact after_andThen events (next value) last

theorem map_eq_error_iff {f : α → β} {r : Report ε α} {error : ε} :
    (r.map f).result = .error error ↔ r.result = .error error := by
  rcases r with ⟨events, error | value⟩ <;> simp [map, Except.map]

theorem map_after (f : α → β) (log : List Event) (r : Report ε α) :
    (r.after log).map f = (r.map f).after log := rfl

theorem map_andThen {γ : Type} (f : β → γ) (r : Report ε α) (next : α → Report ε β) :
    (r.andThen next).map f = r.andThen fun value => (next value).map f := by
  rcases r with ⟨events, error | value⟩ <;> rfl

theorem andThen_map {γ : Type} (f : α → β) (r : Report ε α) (next : β → Report ε γ) :
    (r.map f).andThen next = r.andThen fun value => next (f value) := by
  rcases r with ⟨events, error | value⟩ <;> rfl

end Report

namespace Worklist

/-! ## The frame of a block -/

/-- The frame recorded for a block, if it has been reached. -/
def frameAt? (w : Worklist) (b : BlockId) : Option Frame := w.entries[b]?.join

theorem frameAt?_eq_some_iff {w : Worklist} {b : BlockId} {f : Frame} :
    w.frameAt? b = some f ↔ w.entries[b]? = some (some f) := by
  simp [frameAt?, Option.join_eq_some_iff]

theorem frameAt?_congr {w w' : Worklist} (h : w.entries = w'.entries) (b : BlockId) :
    w.frameAt? b = w'.frameAt? b := by
  unfold frameAt?
  rw [h]

theorem frameAt?_ofSize (n : Nat) (b : BlockId) : (ofSize n).frameAt? b = none := by
  simp only [frameAt?, ofSize, Array.getElem?_replicate]
  split <;> rfl

theorem frameAt?_setEntry {w : Worklist} {b : BlockId} (hb : b < w.entries.size) (f : Frame)
    (c : BlockId) :
    (w.setEntry b f).frameAt? c = if c = b then some f else w.frameAt? c := by
  unfold frameAt?
  rw [entries_setEntry, Array.getElem?_setIfInBounds]
  by_cases h : c = b
  · simp [h, hb]
  · simp [h, Ne.symm h]

theorem frameAt?_setEntry_self {w : Worklist} {b : BlockId} (hb : b < w.entries.size)
    (f : Frame) : (w.setEntry b f).frameAt? b = some f := by
  rw [frameAt?_setEntry hb, if_pos rfl]

theorem size_setEntry (w : Worklist) (b : BlockId) (f : Frame) :
    (w.setEntry b f).entries.size = w.entries.size := by
  simp

/-! ## The queue -/

/-- The marks tell which blocks are in the queue, none stands there twice, and each of them
has been reached. -/
structure Sound (w : Worklist) : Prop where
  size_eq : w.queued.size = w.entries.size
  queued_iff : ∀ {b}, w.queued[b]? = some true ↔ b ∈ w.queue
  reached : ∀ {b}, b ∈ w.queue → ∃ f, w.frameAt? b = some f
  nodup : w.queue.Nodup

theorem sound_ofSize (n : Nat) : (ofSize n).Sound := by
  refine ⟨by simp [ofSize], ?_, ?_, .nil⟩
  · intro b
    simp only [ofSize, List.not_mem_nil, iff_false, Array.getElem?_replicate]
    split <;> simp
  · intro b hb
    simp [ofSize] at hb

theorem queue_enqueue (w : Worklist) (b : BlockId) :
    (w.enqueue b).queue = if w.queued[b]? = some true then w.queue else w.queue ++ [b] := by
  unfold enqueue
  split <;> rfl

theorem mem_queue_enqueue {w : Worklist} (h : w.Sound) {b c : BlockId} :
    c ∈ (w.enqueue b).queue ↔ c ∈ w.queue ∨ c = b := by
  rw [queue_enqueue]
  split
  · rename_i hqueued
    have hb : b ∈ w.queue := h.queued_iff.mp hqueued
    constructor
    · exact Or.inl
    · rintro (hc | rfl)
      · exact hc
      · exact hb
  · simp

theorem mem_queue_setEntry {w : Worklist} (h : w.Sound) {b c : BlockId} {f : Frame} :
    c ∈ (w.setEntry b f).queue ↔ c ∈ w.queue ∨ c = b := by
  have : (w.setEntry b f).queue = (w.enqueue b).queue := by
    unfold setEntry
    rw [queue_enqueue, queue_enqueue]
  rw [this, mem_queue_enqueue h]

theorem sound_setEntry {w : Worklist} (h : w.Sound) {b : BlockId} (hb : b < w.entries.size)
    (f : Frame) : (w.setEntry b f).Sound := by
  have hreached : ∀ {c}, c ∈ (w.setEntry b f).queue →
      ∃ g, (w.setEntry b f).frameAt? c = some g := by
    intro c hc
    rw [frameAt?_setEntry hb]
    by_cases hcb : c = b
    · exact ⟨f, if_pos hcb⟩
    · rw [if_neg hcb]
      rcases (mem_queue_setEntry h).mp hc with hc | hc
      · exact h.reached hc
      · exact absurd hc hcb
  by_cases hqueued : w.queued[b]? = some true
  · have hset : w.setEntry b f =
        { w with entries := w.entries.setIfInBounds b (some f) } := by
      simp [setEntry, enqueue, hqueued]
    refine ⟨?_, ?_, hreached, ?_⟩
    · simp [hset, h.size_eq]
    · intro c
      rw [hset]
      exact h.queued_iff
    · rw [hset]
      exact h.nodup
  · have hset : w.setEntry b f =
        { entries := w.entries.setIfInBounds b (some f)
          queue := w.queue ++ [b]
          queued := w.queued.setIfInBounds b true } := by
      simp [setEntry, enqueue, hqueued]
    refine ⟨?_, ?_, hreached, ?_⟩
    · simp [hset, h.size_eq]
    · intro c
      simp only [hset, Array.getElem?_setIfInBounds, List.mem_append, List.mem_singleton]
      by_cases hcb : b = c
      · subst hcb
        simp [h.size_eq, hb]
      · rw [if_neg hcb, h.queued_iff]
        simp [Ne.symm hcb]
    · rw [hset, List.nodup_append]
      refine ⟨h.nodup, by simp, ?_⟩
      intro c hc d hd hcd
      rw [List.mem_singleton] at hd
      rw [← hd, ← hcd] at hqueued
      exact hqueued (h.queued_iff.mpr hc)

/-- Every block in the queue has a frame, so a pop takes the first one. -/
theorem pop?_of_queue_eq_cons {w : Worklist} (h : w.Sound) {b : BlockId} {rest : List BlockId}
    (hqueue : w.queue = b :: rest) :
    ∃ f, w.frameAt? b = some f ∧
      w.pop? = some (b, f, ⟨w.entries, rest, w.queued.setIfInBounds b false⟩) := by
  obtain ⟨f, hf⟩ := h.reached (hqueue ▸ List.mem_cons_self)
  refine ⟨f, hf, ?_⟩
  rw [frameAt?_eq_some_iff] at hf
  simp [pop?, hqueue, popFrom, hf]

theorem pop?_eq_none_iff {w : Worklist} (h : w.Sound) : w.pop? = none ↔ w.queue = [] := by
  constructor
  · intro hpop
    cases hqueue : w.queue with
    | nil => rfl
    | cons b rest =>
      obtain ⟨f, -, hsome⟩ := pop?_of_queue_eq_cons h hqueue
      rw [hpop] at hsome
      contradiction
  · intro hqueue
    simp [pop?, hqueue, popFrom]

theorem sound_popped {w : Worklist} (h : w.Sound) {b : BlockId} {rest : List BlockId}
    (hqueue : w.queue = b :: rest) :
    Sound ⟨w.entries, rest, w.queued.setIfInBounds b false⟩ := by
  have hnodup := h.nodup
  rw [hqueue, List.nodup_cons] at hnodup
  refine ⟨by simp [h.size_eq], ?_, ?_, hnodup.2⟩
  · intro c
    simp only [Array.getElem?_setIfInBounds]
    by_cases hcb : b = c
    · rw [if_pos hcb]
      have : c ∉ rest := hcb ▸ hnodup.1
      simp only [this, iff_false]
      split <;> simp
    · rw [if_neg hcb, h.queued_iff, hqueue]
      simp [Ne.symm hcb]
  · intro c hc
    exact h.reached (hqueue ▸ List.mem_cons_of_mem b hc)

/-- A pop takes the first block off the queue and touches nothing else. -/
theorem pop?_cases {w rest : Worklist} (h : w.Sound) {b : BlockId} {f : Frame}
    (hpop : w.pop? = some (b, f, rest)) :
    w.queue = b :: rest.queue ∧ w.frameAt? b = some f ∧ rest.entries = w.entries ∧
      rest.Sound := by
  cases hqueue : w.queue with
  | nil => simp [(pop?_eq_none_iff h).mpr hqueue] at hpop
  | cons c others =>
    obtain ⟨g, hg, hsome⟩ := pop?_of_queue_eq_cons h hqueue
    rw [hsome] at hpop
    simp only [Option.some.injEq, Prod.mk.injEq] at hpop
    obtain ⟨rfl, rfl, rfl⟩ := hpop
    exact ⟨rfl, hg, rfl, sound_popped h hqueue⟩

/-! ## Propagating a frame -/

/-- A frame that is propagated is the first of its block, or changes the one there, or is
absorbed by it. -/
theorem propagate_cases {w next : Worklist} {d : Delivery} {changed : Bool}
    (h : w.propagate d = .ok (next, changed)) :
    (w.entries[d.target]? = some none ∧ next = w.setEntry d.target d.frame) ∨
    (∃ current merged, w.frameAt? d.target = some current ∧
      current.merge d.frame = .ok (merged, true) ∧ next = w.setEntry d.target merged) ∨
    (∃ current, w.frameAt? d.target = some current ∧ current.Absorbs d.frame ∧ next = w) := by
  unfold propagate at h
  split at h
  · contradiction
  · rename_i hblank
    simp only [Except.ok.injEq, Prod.mk.injEq] at h
    exact Or.inl ⟨hblank, h.1.symm⟩
  · rename_i current hcurrent
    rw [← frameAt?_eq_some_iff] at hcurrent
    split at h
    · contradiction
    · rename_i merged hmerge
      simp only [Except.ok.injEq, Prod.mk.injEq] at h
      exact Or.inr (Or.inl ⟨current, merged, hcurrent, hmerge, h.1.symm⟩)
    · rename_i merged hmerge
      simp only [Except.ok.injEq, Prod.mk.injEq] at h
      have habsorbs : current.Absorbs d.frame := by
        unfold Frame.Absorbs
        rw [hmerge, Frame.eq_of_merge_unchanged hmerge]
      exact Or.inr (Or.inr ⟨current, hcurrent, habsorbs, h.1.symm⟩)

theorem lt_size_of_frameAt? {w : Worklist} {b : BlockId} {f : Frame}
    (h : w.frameAt? b = some f) : b < w.entries.size := by
  rw [frameAt?_eq_some_iff] at h
  exact (Array.getElem?_eq_some_iff.mp h).1

theorem lt_size_of_blank {w : Worklist} {b : BlockId} (h : w.entries[b]? = some none) :
    b < w.entries.size :=
  (Array.getElem?_eq_some_iff.mp h).1

theorem frameAt?_of_blank {w : Worklist} {b : BlockId} (h : w.entries[b]? = some none) :
    w.frameAt? b = none := by
  simp [frameAt?, h]

theorem sound_propagate {w next : Worklist} {d : Delivery} {changed : Bool} (hw : w.Sound)
    (h : w.propagate d = .ok (next, changed)) : next.Sound := by
  rcases propagate_cases h with ⟨hblank, rfl⟩ | ⟨_, _, hcurrent, _, rfl⟩ | ⟨_, _, _, rfl⟩
  · exact sound_setEntry hw (lt_size_of_blank hblank) _
  · exact sound_setEntry hw (lt_size_of_frameAt? hcurrent) _
  · exact hw

/-- The frame has been joined into the one of its block. -/
def Takes (w : Worklist) (d : Delivery) : Prop :=
  ∃ f, w.frameAt? d.target = some f ∧ f.Absorbs d.frame

/-- How a worklist changes while frames are delivered: no frame is lost, every block that
waits goes on waiting, and so does every block whose frame has changed. -/
structure Grows (w w' : Worklist) : Prop where
  size_eq : w'.entries.size = w.entries.size
  absorbs : ∀ {b f}, w.frameAt? b = some f → ∃ f', w'.frameAt? b = some f' ∧ f'.Absorbs f
  queue : ∀ {b}, b ∈ w.queue → b ∈ w'.queue
  changed : ∀ {b}, w'.frameAt? b ≠ w.frameAt? b → b ∈ w'.queue

theorem Grows.refl (w : Worklist) : Grows w w :=
  ⟨rfl, fun {_ f} hf => ⟨f, hf, f.absorbs_self⟩, id, fun h => absurd rfl h⟩

theorem Grows.trans {w₁ w₂ w₃ : Worklist} (h : Grows w₁ w₂) (h' : Grows w₂ w₃) :
    Grows w₁ w₃ := by
  refine ⟨h'.size_eq.trans h.size_eq, ?_, fun hb => h'.queue (h.queue hb), ?_⟩
  · intro b f hf
    obtain ⟨f₂, hf₂, habs₂⟩ := h.absorbs hf
    obtain ⟨f₃, hf₃, habs₃⟩ := h'.absorbs hf₂
    exact ⟨f₃, hf₃, habs₃.trans habs₂⟩
  · intro b hne
    by_cases hsame : w₃.frameAt? b = w₂.frameAt? b
    · exact h'.queue (h.changed (hsame ▸ hne))
    · exact h'.changed hsame

theorem Takes.grows {w w' : Worklist} {d : Delivery} (h : w.Takes d) (hw : Grows w w') :
    w'.Takes d := by
  obtain ⟨f, hf, habs⟩ := h
  obtain ⟨f', hf', habs'⟩ := hw.absorbs hf
  exact ⟨f', hf', habs'.trans habs⟩

theorem grows_setEntry {w : Worklist} (hw : w.Sound) {b : BlockId} {f : Frame}
    (hb : b < w.entries.size) (habs : ∀ g, w.frameAt? b = some g → f.Absorbs g) :
    Grows w (w.setEntry b f) := by
  refine ⟨size_setEntry w b f, ?_, fun hc => (mem_queue_setEntry hw).mpr (Or.inl hc), ?_⟩
  · intro c g hg
    rw [frameAt?_setEntry hb]
    by_cases hcb : c = b
    · exact ⟨f, if_pos hcb, habs g (hcb ▸ hg)⟩
    · exact ⟨g, (if_neg hcb).trans hg, g.absorbs_self⟩
  · intro c hne
    rw [frameAt?_setEntry hb] at hne
    by_cases hcb : c = b
    · exact (mem_queue_setEntry hw).mpr (Or.inr hcb)
    · exact absurd (if_neg hcb) hne

theorem grows_propagate {w next : Worklist} {d : Delivery} {changed : Bool} (hw : w.Sound)
    (h : w.propagate d = .ok (next, changed)) : Grows w next := by
  rcases propagate_cases h with ⟨hblank, rfl⟩ | ⟨current, merged, hcurrent, hmerge, rfl⟩ |
    ⟨_, _, _, rfl⟩
  · apply grows_setEntry hw (lt_size_of_blank hblank)
    intro g hg
    rw [frameAt?_of_blank hblank] at hg
    contradiction
  · apply grows_setEntry hw (lt_size_of_frameAt? hcurrent)
    intro g hg
    rw [hcurrent, Option.some.injEq] at hg
    exact hg ▸ (Frame.merge_absorbs hmerge).1
  · exact Grows.refl _

theorem takes_propagate {w next : Worklist} {d : Delivery} {changed : Bool}
    (h : w.propagate d = .ok (next, changed)) : next.Takes d := by
  rcases propagate_cases h with ⟨hblank, rfl⟩ | ⟨current, merged, hcurrent, hmerge, rfl⟩ |
    ⟨current, hcurrent, habsorbs, rfl⟩
  · exact ⟨d.frame, frameAt?_setEntry_self (lt_size_of_blank hblank) _, d.frame.absorbs_self⟩
  · exact ⟨merged, frameAt?_setEntry_self (lt_size_of_frameAt? hcurrent) _,
      (Frame.merge_absorbs hmerge).2⟩
  · exact ⟨current, hcurrent, habsorbs⟩

/-! ## Delivering many -/

theorem deliver_append (w : Worklist) (ds ds' : List Delivery) :
    w.deliver (ds ++ ds') = (w.deliver ds).andThen (·.deliver ds') := by
  induction ds generalizing w with
  | nil => simp [deliver, Report.success, Report.andThen, Report.after]
  | cons d rest ih =>
    rw [List.cons_append, deliver, deliver]
    rcases w.propagate d with fault | ⟨next, changed⟩
    · rfl
    · simp only [ih, Report.after_andThen]

theorem deliver_cons_eq_ok {w next : Worklist} {d : Delivery} {rest : List Delivery} :
    (w.deliver (d :: rest)).result = .ok next ↔
      ∃ middle changed, w.propagate d = .ok (middle, changed) ∧
        (middle.deliver rest).result = .ok next := by
  rw [deliver]
  rcases h : w.propagate d with fault | ⟨middle, changed⟩
  · simp [Report.failure]
  · simp [Report.after]

/-- Frames are delivered up to the first that cannot be joined. -/
theorem deliver_eq_error {w : Worklist} {ds : List Delivery} {failure : Failure}
    (h : (w.deliver ds).result = .error failure) :
    ∃ before d after middle fault, ds = before ++ d :: after ∧
      (w.deliver before).result = .ok middle ∧ middle.propagate d = .error fault ∧
      failure = .blockEntry d.target fault := by
  induction ds generalizing w with
  | nil => cases h
  | cons d rest ih =>
    rw [deliver] at h
    split at h
    · rename_i fault hfault
      cases h
      exact ⟨[], d, rest, w, fault, rfl, rfl, hfault, rfl⟩
    · rename_i next changed hnext
      obtain ⟨before, d', after, middle, fault, rfl, hbefore, hfault, rfl⟩ := ih h
      exact ⟨d :: before, d', after, middle, fault, rfl,
        deliver_cons_eq_ok.mpr ⟨next, changed, hnext, hbefore⟩, hfault, rfl⟩

theorem sound_deliver {w next : Worklist} {ds : List Delivery} (hw : w.Sound)
    (h : (w.deliver ds).result = .ok next) : next.Sound := by
  induction ds generalizing w with
  | nil =>
    simp only [deliver, Report.success, Except.ok.injEq] at h
    exact h ▸ hw
  | cons d rest ih =>
    obtain ⟨middle, changed, hprop, hrest⟩ := deliver_cons_eq_ok.mp h
    exact ih (sound_propagate hw hprop) hrest

theorem grows_deliver {w next : Worklist} {ds : List Delivery} (hw : w.Sound)
    (h : (w.deliver ds).result = .ok next) : Grows w next := by
  induction ds generalizing w with
  | nil =>
    simp only [deliver, Report.success, Except.ok.injEq] at h
    exact h ▸ Grows.refl w
  | cons d rest ih =>
    obtain ⟨middle, changed, hprop, hrest⟩ := deliver_cons_eq_ok.mp h
    exact (grows_propagate hw hprop).trans (ih (sound_propagate hw hprop) hrest)

/-- Every frame that was delivered has been taken in. -/
theorem takes_deliver {w next : Worklist} {ds : List Delivery} (hw : w.Sound)
    (h : (w.deliver ds).result = .ok next) : ∀ d ∈ ds, next.Takes d := by
  induction ds generalizing w with
  | nil => simp
  | cons d rest ih =>
    obtain ⟨middle, changed, hprop, hrest⟩ := deliver_cons_eq_ok.mp h
    have hmiddle := sound_propagate hw hprop
    intro d' hd'
    rcases List.mem_cons.mp hd' with rfl | hd'
    · exact (takes_propagate hprop).grows (grows_deliver hmiddle hrest)
    · exact ih hmiddle hrest d' hd'

/-- What holds of all frames of a worklist, and of all that are delivered, holds of all
frames afterwards, if joins keep it. -/
theorem forall_deliver {P : BlockId → Frame → Prop}
    (hjoin : ∀ {b f g merged changed}, P b f → P b g → f.merge g = .ok (merged, changed) →
      P b merged)
    {w next : Worklist} {ds : List Delivery} (hds : ∀ d ∈ ds, P d.target d.frame)
    (hw : ∀ {b f}, w.frameAt? b = some f → P b f)
    (h : (w.deliver ds).result = .ok next) {b : BlockId} {f : Frame}
    (hf : next.frameAt? b = some f) : P b f := by
  induction ds generalizing w with
  | nil =>
    simp only [deliver, Report.success, Except.ok.injEq] at h
    exact hw (h ▸ hf)
  | cons d rest ih =>
    obtain ⟨middle, changed, hprop, hrest⟩ := deliver_cons_eq_ok.mp h
    have hset : ∀ {g c k}, d.target < w.entries.size → P d.target g →
        (w.setEntry d.target g).frameAt? c = some k → P c k := by
      intro g c k hlt hg hk
      rw [frameAt?_setEntry hlt] at hk
      split at hk
      · rename_i hc
        simp only [Option.some.injEq] at hk
        exact hc ▸ hk ▸ hg
      · exact hw hk
    apply ih (fun d' hd' => hds d' (List.mem_cons_of_mem d hd')) _ hrest
    intro c k hk
    rcases propagate_cases hprop with ⟨hblank, rfl⟩ | ⟨current, merged, hcurrent, hmerge, rfl⟩ |
      ⟨_, _, _, rfl⟩
    · exact hset (lt_size_of_blank hblank) (hds d List.mem_cons_self) hk
    · exact hset (lt_size_of_frameAt? hcurrent)
        (hjoin (hw hcurrent) (hds d List.mem_cons_self) hmerge) hk
    · exact hw hk

end Worklist

end SymbolicFrames
