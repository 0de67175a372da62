-- The moments of an analysis: what the worklist holds before and after each frame that is
-- delivered, from when nothing has been reached to the end or to the failure. Main statement:
-- from one moment to the next no block loses its frame, and the frame that it has then absorbs
-- the one it had.
import Mathlib.Data.List.Chain
import SymbolicFrames.Proofs.FixedPoint

namespace SymbolicFrames

/-! ## Deliveries -/

namespace Worklist

/-- The worklist before each of the frames is delivered, and after the last, up to the first
that cannot be joined. -/
def stages (w : Worklist) : List Delivery → List Worklist
  | [] => [w]
  | d :: rest =>
    match w.propagate d with
    | .error _ => [w]
    | .ok (next, _) => w :: next.stages rest

theorem head?_stages (w : Worklist) (ds : List Delivery) : (w.stages ds).head? = some w := by
  cases ds with
  | nil => rfl
  | cons d rest =>
    unfold stages
    split <;> rfl

theorem getLast?_stages {w next : Worklist} {ds : List Delivery}
    (h : (w.deliver ds).result = .ok next) : (w.stages ds).getLast? = some next := by
  induction ds generalizing w with
  | nil =>
    simp only [deliver, Report.success, Except.ok.injEq] at h
    simp [stages, h]
  | cons d rest ih =>
    obtain ⟨middle, changed, hprop, hrest⟩ := deliver_cons_eq_ok.mp h
    simp [stages, hprop, List.getLast?_cons, ih hrest]

/-- Every block that has been reached keeps a frame, and one that absorbs the frame it had. -/
def Precedes (w w' : Worklist) : Prop :=
  ∀ b f, w.frameAt? b = some f → ∃ f', w'.frameAt? b = some f' ∧ f'.Absorbs f

theorem precedes_of_entries_eq {w w' : Worklist} (h : w'.entries = w.entries) : w.Precedes w' := by
  intro b f hf
  rw [← frameAt?_congr h] at hf
  exact ⟨f, hf, f.absorbs_self⟩

theorem Precedes.trans {w₁ w₂ w₃ : Worklist} (h : w₁.Precedes w₂) (h' : w₂.Precedes w₃) :
    w₁.Precedes w₃ := by
  intro b f hf
  obtain ⟨f₂, hf₂, habsorbs₂⟩ := h b f hf
  obtain ⟨f₃, hf₃, habsorbs₃⟩ := h' b f₂ hf₂
  exact ⟨f₃, hf₃, habsorbs₃.trans habsorbs₂⟩

instance : Trans Precedes Precedes Precedes := ⟨Precedes.trans⟩

theorem Grows.precedes {w w' : Worklist} (h : Grows w w') : w.Precedes w' :=
  fun _ _ hf => h.absorbs hf

theorem isChain_stages {w : Worklist} (hw : w.Sound) (ds : List Delivery) :
    (w.stages ds).IsChain Precedes := by
  induction ds generalizing w with
  | nil => exact .singleton w
  | cons d rest ih =>
    unfold stages
    split
    · exact .singleton w
    · rename_i next changed hprop
      apply List.IsChain.cons (ih (sound_propagate hw hprop))
      intro w' hw'
      rw [head?_stages, Option.mem_some_iff] at hw'
      exact hw' ▸ (grows_propagate hw hprop).precedes

end Worklist

namespace Problem

variable {problem : Problem} {p next : Progress} {id : BlockId} {frame : Frame}
  {waiting : Worklist}

/-! ## Visits -/

/-- The moments of a visit. Where none is made, because the limit is reached or the block is not
there, the worklist stays as it is. -/
def stages (problem : Problem) (p : Progress) (id : BlockId) (frame : Frame)
    (waiting : Worklist) : List Worklist :=
  match problem.settings.limitReached? p.visits, problem.graph.nodes[id]? with
  | none, some node => waiting.stages (problem.sends node frame)
  | _, _ => [waiting]

theorem head?_stages (problem : Problem) (p : Progress) (id : BlockId) (frame : Frame)
    (waiting : Worklist) : (problem.stages p id frame waiting).head? = some waiting := by
  unfold stages
  split
  · exact waiting.head?_stages _
  · rfl

theorem getLast?_stages (hvisit : (problem.visit p id frame waiting).result = .ok next) :
    (problem.stages p id frame waiting).getLast? = some next.worklist := by
  obtain ⟨node, hnode, hlimit, -, hdeliver, -⟩ := visit_cases hvisit
  unfold stages
  rw [hlimit, hnode]
  exact Worklist.getLast?_stages hdeliver

theorem isChain_stages (problem : Problem) (p : Progress) (id : BlockId) (frame : Frame)
    (hwaiting : waiting.Sound) :
    (problem.stages p id frame waiting).IsChain Worklist.Precedes := by
  unfold stages
  split
  · exact Worklist.isChain_stages hwaiting _
  · exact .singleton waiting

theorem sound_visit (hwaiting : waiting.Sound)
    (hvisit : (problem.visit p id frame waiting).result = .ok next) : next.worklist.Sound := by
  obtain ⟨_, -, -, -, hdeliver, -⟩ := visit_cases hvisit
  exact Worklist.sound_deliver hwaiting hdeliver

/-! ## Runs -/

/-- The moments of all visits from here on. -/
def later (problem : Problem) (p : Progress) : List Worklist :=
  match _hpop : p.worklist.pop? with
  | none => []
  | some (id, frame, waiting) =>
    match _hvisit : (problem.visit p id frame waiting).result with
    | .error _ => problem.stages p id frame waiting
    | .ok next => problem.stages p id frame waiting ++ problem.later next
termination_by (p.worklist.blanks, p.worklist.rank, p.worklist.queue.length)
decreasing_by
  have hstep : problem.step? p = some (problem.visit p id frame waiting) := by simp [step?, _hpop]
  exact step?_decreases hstep _hvisit

theorem later_of_idle (hpop : p.worklist.pop? = none) : problem.later p = [] := by
  fun_cases problem.later p with
  | case1 => rfl
  | case2 _ _ _ hsome | case3 _ _ _ hsome => simp [hpop] at hsome

theorem later_of_visit (hpop : p.worklist.pop? = some (id, frame, waiting))
    (hvisit : (problem.visit p id frame waiting).result = .ok next) :
    problem.later p = problem.stages p id frame waiting ++ problem.later next := by
  fun_cases problem.later p with
  | case1 hnone => simp [hpop] at hnone
  | case2 id' frame' waiting' hpop' failure hfails =>
    rw [hpop, Option.some.injEq] at hpop'
    cases hpop'
    rw [hvisit] at hfails
    cases hfails
  | case3 id' frame' waiting' hpop' next' hvisit' =>
    rw [hpop, Option.some.injEq] at hpop'
    cases hpop'
    rw [hvisit, Except.ok.injEq] at hvisit'
    rw [hvisit']

/-- Where a block waits, the moments of the visit to it come first, whether it succeeds or
fails. -/
theorem head?_later (hpop : p.worklist.pop? = some (id, frame, waiting)) :
    (problem.later p).head? = some waiting := by
  fun_cases problem.later p with
  | case1 hnone => simp [hpop] at hnone
  | case2 id' frame' waiting' hpop' | case3 id' frame' waiting' hpop' =>
    rw [hpop, Option.some.injEq] at hpop'
    cases hpop'
    simp [head?_stages]

/-- A run goes on from the frames that it starts with. -/
theorem precedes_head?_later (hsound : p.worklist.Sound) :
    ∀ w ∈ (problem.later p).head?, p.worklist.Precedes w := by
  intro w hw
  rcases hpop : p.worklist.pop? with _ | ⟨id, frame, waiting⟩
  · simp [later_of_idle hpop] at hw
  · obtain ⟨-, -, hentries, -⟩ := Worklist.pop?_cases hsound hpop
    rw [head?_later hpop, Option.mem_some_iff] at hw
    exact hw ▸ Worklist.precedes_of_entries_eq hentries

theorem isChain_later (hsound : p.worklist.Sound) :
    (problem.later p).IsChain Worklist.Precedes := by
  fun_induction problem.later p with
  | case1 => exact .nil
  | case2 p id frame waiting hpop =>
    obtain ⟨-, -, -, hwaiting⟩ := Worklist.pop?_cases hsound hpop
    exact isChain_stages _ _ _ _ hwaiting
  | case3 p id frame waiting hpop next hvisit ih =>
    obtain ⟨-, -, -, hwaiting⟩ := Worklist.pop?_cases hsound hpop
    have hnext := sound_visit hwaiting hvisit
    refine List.isChain_append.mpr ⟨isChain_stages _ _ _ _ hwaiting, ih hnext, ?_⟩
    -- The next visit begins with the frames that this one leaves.
    intro w hw w' hw'
    rw [getLast?_stages hvisit, Option.mem_some_iff] at hw
    exact hw ▸ precedes_head?_later hnext w' hw'

theorem exists_moment_of_pop (hsound : p.worklist.Sound)
    (hpop : p.worklist.pop? = some (id, frame, waiting)) :
    ∃ w ∈ problem.later p, w.frameAt? id = some frame := by
  obtain ⟨-, hframe, hentries, -⟩ := Worklist.pop?_cases hsound hpop
  refine ⟨waiting, List.mem_of_mem_head? (head?_later hpop), ?_⟩
  rw [Worklist.frameAt?_congr hentries, hframe]

/-- Every visit is made with the frame that its block has at some moment. -/
theorem exists_moment_of_visit (hsound : p.worklist.Sound) :
    ∀ visited ∈ visitsOf (problem.run p).log,
      ∃ w ∈ problem.later p, w.frameAt? visited.1 = some visited.2 := by
  fun_induction problem.run p with
  | case1 p hstep => simp [visitsOf, Event.visit?]
  | case2 p report hstep failure hfails =>
    rw [step?, Option.map_eq_some_iff] at hstep
    obtain ⟨⟨id, frame, waiting⟩, hpop, rfl⟩ := hstep
    intro visited hvisited
    have hvisit := (problem.visitsOf_visit_sublist p id frame waiting).subset hvisited
    rw [List.mem_singleton.mp hvisit]
    exact exists_moment_of_pop hsound hpop
  | case3 p report hstep next hvisit ih =>
    rw [step?, Option.map_eq_some_iff] at hstep
    obtain ⟨⟨id, frame, waiting⟩, hpop, rfl⟩ := hstep
    obtain ⟨-, -, -, hwaiting⟩ := Worklist.pop?_cases hsound hpop
    intro visited hvisited
    simp only [Report.after, visitsOf_append, List.mem_append, visitsOf_visit_of_ok hvisit,
      List.mem_singleton] at hvisited
    rcases hvisited with rfl | hvisited
    · exact exists_moment_of_pop hsound hpop
    · obtain ⟨w, hw, hframe⟩ := ih (sound_visit hwaiting hvisit) visited hvisited
      rw [later_of_visit hpop hvisit]
      exact ⟨w, List.mem_append_right _ hw, hframe⟩

/-- The last moment of a run is where it ends. -/
theorem Run.getLast?_later {q : Progress} {visits : List (BlockId × Frame)}
    (hrun : problem.Run p visits q) (hend : q.worklist.pop? = none) :
    (p.worklist :: problem.later p).getLast? = some q.worklist := by
  induction hrun with
  | nil p => simp [later_of_idle hend]
  | cons hpop hvisit _ ih =>
    rw [later_of_visit hpop hvisit]
    have hlast := ih hend
    simp only [List.getLast?_cons, List.getLast?_append, getLast?_stages hvisit,
      Option.or_some, Option.getD_some] at hlast ⊢
    exact hlast

/-! ## The whole analysis -/

/-- All moments of an analysis. There is none if the graph or the arguments are at fault. -/
def moments (problem : Problem) : List Worklist :=
  match problem.graph.fault? problem.method.instructions.length, problem.method.entryFrame with
  | none, .ok frame =>
    let blank := Worklist.ofSize problem.graph.size
    match (blank.deliver [⟨Graph.entry, frame⟩]).result with
    | .error _ => blank.stages [⟨Graph.entry, frame⟩]
    | .ok w => blank.stages [⟨Graph.entry, frame⟩] ++ problem.later (problem.start w)
  | _, _ => []

theorem moments_of_begins {entry : Frame} {w : Worklist}
    (hfault : problem.graph.fault? problem.method.instructions.length = none)
    (hbegins : problem.Begins entry w) :
    problem.moments
      = Worklist.ofSize problem.graph.size :: w :: problem.later (problem.start w) := by
  obtain ⟨hvalid, hentry, rfl⟩ := hbegins
  have hblank : (Worklist.ofSize problem.graph.size).entries[Graph.entry]? = some none := by
    simp [Worklist.ofSize, hvalid.has_entry]
  simp [moments, hfault, hentry, Worklist.stages, Worklist.deliver, Worklist.propagate, hblank,
    Report.after, Report.success]

/-- An analysis has no moments, or it begins. -/
theorem moments_cases (problem : Problem) :
    problem.moments = [] ∧ (∃ failure, problem.outcome = .failure failure) ∨
    ∃ entry w, problem.Begins entry w ∧
      problem.moments
        = Worklist.ofSize problem.graph.size :: w :: problem.later (problem.start w) ∧
      problem.outcome.result = (problem.run (problem.start w)).result ∧
      visitsOf problem.outcome.log = visitsOf (problem.run (problem.start w)).log := by
  rcases hfault : problem.graph.fault? problem.method.instructions.length with _ | fault
  · rcases hentry : problem.method.entryFrame with fault | entry
    · refine Or.inl ⟨by simp [moments, hentry], .methodEntry fault, ?_⟩
      simp [outcome, hfault, hentry]
    · obtain ⟨w, hbegins, hresult, hlog⟩ := outcome_of_begins hfault hentry
      exact Or.inr ⟨entry, w, hbegins, moments_of_begins hfault hbegins, hresult, hlog⟩
  · exact Or.inl ⟨by simp [moments, hfault], .graph fault, by simp [outcome, hfault]⟩

/-- Nothing that has been recorded is lost from one moment to the next. -/
theorem isChain_moments (problem : Problem) : problem.moments.IsChain Worklist.Precedes := by
  rcases problem.moments_cases with ⟨hnil, -⟩ | ⟨entry, w, hbegins, hmoments, -⟩
  · rw [hnil]
    exact .nil
  · have hsound : (problem.start w).worklist.Sound := (steady_start hbegins).sound
    rw [hmoments]
    refine .cons_cons ?_ (.cons (isChain_later hsound) (precedes_head?_later hsound))
    intro b f hf
    simp [Worklist.frameAt?_ofSize] at hf

theorem pairwise_moments (problem : Problem) : problem.moments.Pairwise Worklist.Precedes :=
  problem.isChain_moments.pairwise

theorem exists_moment_of_visited {visited : BlockId × Frame}
    (h : visited ∈ visitsOf problem.outcome.log) :
    ∃ w ∈ problem.moments, w.frameAt? visited.1 = some visited.2 := by
  rcases problem.moments_cases with ⟨-, failure, hfails⟩ | ⟨entry, w, hbegins, hmoments, -, hlog⟩
  · simp [hfails, Report.failure] at h
  · rw [hlog] at h
    obtain ⟨w', hw', hframe⟩ :=
      exists_moment_of_visit (steady_start hbegins).sound visited h
    rw [hmoments]
    exact ⟨w', List.mem_cons_of_mem _ (List.mem_cons_of_mem _ hw'), hframe⟩

/-- At the last moment every block has the frame that is recorded before its first
instruction. -/
theorem getLast?_moments {frames : Frames} (h : problem.outcome.result = .ok frames) :
    ∃ w, problem.moments.getLast? = some w ∧ ∀ id f, w.frameAt? id = some f ↔
      ∃ b, problem.graph.block? id = some b ∧ frames.before? b.start = some f := by
  rcases problem.moments_cases with ⟨-, failure, hfails⟩ | ⟨entry, w, hbegins, hmoments, hresult, -⟩
  · rw [hfails] at h
    cases h
  · obtain ⟨visits, q, hrun, hend⟩ := problem.run_cases (problem.start w)
    rw [hresult] at h
    rcases hend with ⟨hidle, hok, -⟩ | ⟨_, _, _, _, _, _, herror, -⟩
    · rw [hok] at h
      cases h
      refine ⟨q.worklist, ?_, fun id f => (finished_of_run hbegins hrun hidle).frameAt?_iff⟩
      rw [hmoments, List.getLast?_cons_cons]
      exact hrun.getLast?_later hidle
    · rw [herror] at h
      cases h

/-! ## Moments that can be evaluated -/

/-- The moments of a run if it takes fewer visits than given, and nothing if it takes more. -/
def laterWithin (problem : Problem) : Nat → Progress → Option (List Worklist)
  | 0, _ => none
  | visits + 1, p =>
    match p.worklist.pop? with
    | none => some []
    | some (id, frame, waiting) =>
      match (problem.visit p id frame waiting).result with
      | .error _ => some (problem.stages p id frame waiting)
      | .ok next =>
        (problem.laterWithin visits next).map (problem.stages p id frame waiting ++ ·)

theorem later_of_laterWithin {visits : Nat} {moments : List Worklist}
    (h : problem.laterWithin visits p = some moments) : problem.later p = moments := by
  induction visits generalizing p moments with
  | zero => cases h
  | succ visits ih =>
    fun_cases problem.later p with
    | case1 hpop =>
      simp only [laterWithin, hpop, Option.some.injEq] at h
      exact h
    | case2 id frame waiting hpop failure hfails =>
      simp only [laterWithin, hpop, hfails, Option.some.injEq] at h
      exact h
    | case3 id frame waiting hpop next hvisit =>
      simp only [laterWithin, hpop, hvisit, Option.map_eq_some_iff] at h
      obtain ⟨rest, hrest, rfl⟩ := h
      rw [ih hrest]

/-- The moments of an analysis whose run has been evaluated. -/
theorem moments_of_laterWithin {entry : Frame} {rest : List Worklist} (visits : Nat)
    (hfault : problem.graph.fault? problem.method.instructions.length = none)
    (hentry : problem.method.entryFrame = .ok entry)
    (h : problem.laterWithin visits (problem.start
      ((Worklist.ofSize problem.graph.size).setEntry Graph.entry entry)) = some rest) :
    problem.moments = Worklist.ofSize problem.graph.size
      :: (Worklist.ofSize problem.graph.size).setEntry Graph.entry entry :: rest := by
  have hbegins : problem.Begins entry _ := ⟨Graph.valid_of_fault?_eq_none hfault, hentry, rfl⟩
  rw [moments_of_begins hfault hbegins, later_of_laterWithin h]

end Problem

end SymbolicFrames
