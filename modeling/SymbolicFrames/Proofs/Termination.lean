-- How many visits an analysis makes. Every block can still be reached once and every value of
-- its frame can be changed twice, and only such a change makes a block wait. Main statement:
-- the visits are bounded by the number of blocks and the size of their frames, so a limit at
-- or above that bound never gets in the way.
import SymbolicFrames.Proofs.FixedPoint

namespace SymbolicFrames

/-! ## Frames -/

theorem Value.rank_le (v : Value) : v.rank ≤ 2 := by
  cases v <;> simp [rank]

namespace Frame

theorem rankSum_le (vs : List Value) : rankSum vs ≤ 2 * vs.length := by
  induction vs with
  | nil => exact Nat.le_refl 0
  | cons v vs ih =>
    have hv := v.rank_le
    unfold rankSum at ih ⊢
    rw [total_cons, List.length_cons]
    omega

end Frame

/-- How often a frame of the method can be changed, at most. -/
def Method.changes (method : Method) : Nat := 2 * (method.maxLocals + max method.maxStack 1)

theorem Frame.Fits.rank_le {method : Method} {f : Frame} (h : f.Fits method) :
    f.rank ≤ method.changes := by
  have hlocals := rankSum_le f.locals
  have hstack := rankSum_le f.stack
  have hlength := f.length_stack_le_depth
  have hdepth := h.depth_le
  rw [h.length_locals] at hlocals
  unfold rank Method.changes
  omega

/-! ## Worklists -/

namespace Worklist

/-- How many visits can still come, at most, if a frame can be changed so many times. -/
def potential (changes : Nat) (w : Worklist) : Nat :=
  w.blanks * (1 + changes) + w.rank + w.queue.length

theorem length_queue_setEntry_le (w : Worklist) (b : BlockId) (f : Frame) :
    (w.setEntry b f).queue.length ≤ w.queue.length + 1 := by
  unfold setEntry
  rw [queue_enqueue]
  split
  · exact Nat.le_succ _
  · simp

theorem blanks_setEntry {w : Worklist} {b : BlockId} {old : Option Frame}
    (h : w.entries[b]? = some old) (f : Frame) :
    (w.setEntry b f).blanks + (if old.isNone then 1 else 0) = w.blanks := by
  have hlist : w.entries.toList[b]? = some old := by simpa using h
  have hcount := countP_set_of_getElem? Option.isNone hlist (some f)
  simp only [blanks, entries_setEntry, Array.toList_setIfInBounds]
  simpa using hcount

theorem rank_setEntry {w : Worklist} {b : BlockId} {old : Option Frame}
    (h : w.entries[b]? = some old) (f : Frame) :
    (w.setEntry b f).rank + entryRank old = w.rank + f.rank := by
  have hlist : w.entries.toList[b]? = some old := by simpa using h
  have hsum := total_set entryRank hlist (some f)
  simp only [rank, entries_setEntry, Array.toList_setIfInBounds]
  exact hsum

/-- A block that is reached for the first time pays for its visit and for all changes of its
frame to come. -/
theorem potential_setEntry_of_blank {w : Worklist} {b : BlockId} {f : Frame} {changes : Nat}
    (h : w.entries[b]? = some none) (hf : f.rank ≤ changes) :
    (w.setEntry b f).potential changes ≤ w.potential changes := by
  have hblanks := blanks_setEntry h f
  have hrank := rank_setEntry h f
  have hqueue := length_queue_setEntry_le w b f
  simp only [Option.isNone_none, if_true, entryRank] at hblanks hrank
  unfold potential
  rw [← hblanks, Nat.succ_mul]
  omega

/-- A frame that is changed has one change less to come, which pays for the visit. -/
theorem potential_setEntry_of_changed {w : Worklist} {b : BlockId} {f g : Frame} (changes : Nat)
    (h : w.frameAt? b = some f) (hlt : g.rank < f.rank) :
    (w.setEntry b g).potential changes ≤ w.potential changes := by
  rw [frameAt?_eq_some_iff] at h
  have hblanks := blanks_setEntry h g
  have hrank := rank_setEntry h g
  have hqueue := length_queue_setEntry_le w b g
  simp only [Option.isNone_some, Bool.false_eq_true, if_false, Nat.add_zero, entryRank]
    at hblanks hrank
  unfold potential
  rw [hblanks]
  omega

/-- At the start every block is blank and none waits. -/
theorem potential_ofSize (n changes : Nat) : (ofSize n).potential changes = n * (1 + changes) := by
  have hrank : total entryRank (List.replicate n none) = 0 := by
    induction n with
    | zero => rfl
    | succ n ih => rw [List.replicate_succ, total_cons, ih, entryRank]
  simp [potential, blanks, rank, ofSize, hrank, List.countP_replicate]

theorem potential_propagate_le {method : Method} {w next : Worklist} {d : Delivery}
    {changed : Bool} (hd : d.frame.Fits method) (h : w.propagate d = .ok (next, changed)) :
    next.potential method.changes ≤ w.potential method.changes := by
  rcases propagate_cases h with ⟨hblank, rfl⟩ | ⟨current, merged, hcurrent, hmerge, rfl⟩ |
    ⟨_, _, _, rfl⟩
  · exact potential_setEntry_of_blank hblank hd.rank_le
  · exact potential_setEntry_of_changed _ hcurrent (Frame.rank_lt_of_merge_changed hmerge)
  · exact Nat.le_refl _

theorem potential_deliver_le {method : Method} {w next : Worklist} {ds : List Delivery}
    (hds : ∀ d ∈ ds, d.frame.Fits method) (h : (w.deliver ds).result = .ok next) :
    next.potential method.changes ≤ w.potential method.changes := by
  induction ds generalizing w with
  | nil =>
    simp only [deliver, Report.success, Except.ok.injEq] at h
    exact h ▸ Nat.le_refl _
  | cons d rest ih =>
    obtain ⟨middle, changed, hprop, hrest⟩ := deliver_cons_eq_ok.mp h
    have hfirst := potential_propagate_le (hds d List.mem_cons_self) hprop
    exact Nat.le_trans (ih (fun d' hd' => hds d' (List.mem_cons_of_mem d hd')) hrest) hfirst

/-- A block that waits is a visit to come. -/
theorem potential_pop {w rest : Worklist} {b : BlockId} {f : Frame} (changes : Nat)
    (h : w.pop? = some (b, f, rest)) :
    rest.potential changes + 1 ≤ w.potential changes := by
  obtain ⟨hentries, hqueue⟩ := pop?_eq_some h
  unfold potential blanks rank
  rw [hentries]
  omega

end Worklist

/-! ## Runs -/

namespace Problem

variable {problem : Problem} {entry : Frame}

theorem potential_visit {p next : Progress} {id : BlockId} {frame : Frame} {waiting : Worklist}
    (hp : problem.Steady entry p) (hpop : p.worklist.pop? = some (id, frame, waiting))
    (hvisit : (problem.visit p id frame waiting).result = .ok next) :
    next.worklist.potential problem.method.changes + 1
      ≤ p.worklist.potential problem.method.changes := by
  obtain ⟨-, hframe, -⟩ := Worklist.pop?_cases hp.sound hpop
  obtain ⟨node, -, -, -, hdeliver, -⟩ := visit_cases hvisit
  have hpopped := Worklist.potential_pop problem.method.changes hpop
  have hdelivered := Worklist.potential_deliver_le (sends_fit (hp.fits hframe)) hdeliver
  omega

/-- The visits of a run, and those that can still come after it, were to come before it. -/
theorem Run.length_add_potential_le {p q : Progress} {visits : List (BlockId × Frame)}
    (hvalid : problem.graph.Valid problem.method.instructions.length)
    (hrun : problem.Run p visits q) (hp : problem.Steady entry p) :
    visits.length + q.worklist.potential problem.method.changes
      ≤ p.worklist.potential problem.method.changes := by
  induction hrun with
  | nil => simp
  | cons hpop hvisit _ ih =>
    have hrest := ih (steady_visit hvalid hp hpop hvisit)
    have hfirst := potential_visit hp hpop hvisit
    simp only [List.length_cons]
    omega

theorem Run.visits_eq {p q : Progress} {visits : List (BlockId × Frame)}
    (hrun : problem.Run p visits q) : q.visits = p.visits + visits.length := by
  induction hrun with
  | nil => rfl
  | cons hpop hvisit _ ih =>
    obtain ⟨_, _, _, _, _, _, hcount⟩ := visit_cases hvisit
    rw [ih, hcount, List.length_cons]
    omega

/-- How many visits an analysis makes, at most. -/
def visitBound (problem : Problem) : Nat :=
  problem.graph.size * (1 + 2 * (problem.method.maxLocals + max problem.method.maxStack 1))

theorem potential_start_le {w : Worklist} (h : problem.Begins entry w) :
    w.potential problem.method.changes ≤ problem.visitBound := by
  obtain ⟨hvalid, hentry, rfl⟩ := h
  have hblank : (Worklist.ofSize problem.graph.size).entries[Graph.entry]? = some none := by
    simp [Worklist.ofSize, hvalid.has_entry]
  have hfirst := Worklist.potential_setEntry_of_blank hblank (Frame.fits_entry hentry).rank_le
  rw [Worklist.potential_ofSize] at hfirst
  exact hfirst

/-! ## The limit -/

/-- Nothing but the limit makes a visit fail for being one too many. -/
theorem limitReached?_of_visit {p : Progress} {id : BlockId} {frame : Frame}
    {waiting : Worklist} {limit : Nat}
    (h : (problem.visit p id frame waiting).result = .error (.visitLimit limit)) :
    problem.settings.limitReached? p.visits = some limit := by
  rcases visit_fails h with ⟨_, hlimit, heq⟩ | ⟨-, heq⟩ | ⟨_, -, hdeliver | ⟨_, _, -, heq⟩⟩
  · cases heq
    exact hlimit
  · cases heq
  · obtain ⟨_, _, _, _, _, -, -, -, heq⟩ := Worklist.deliver_eq_error hdeliver
    cases heq
  · cases heq

/-- The visits of an analysis that has begun stay within the bound. It is stopped only by a
limit beneath that. -/
theorem run_within_bound {w : Worklist} (h : problem.Begins entry w) :
    (visitsOf (problem.run (problem.start w)).log).length ≤ problem.visitBound ∧
      ∀ limit, (problem.run (problem.start w)).result = .error (.visitLimit limit) →
        problem.settings.visitLimit = some limit ∧ limit < problem.visitBound := by
  have hstart := potential_start_le h
  obtain ⟨visits, q, hrun, hend⟩ := problem.run_cases (problem.start w)
  have hpotential := hrun.length_add_potential_le h.valid (steady_start h)
  have hcount := hrun.visits_eq
  simp only [start, Nat.zero_add] at hpotential hcount
  rcases hend with ⟨-, hresult, hlog⟩ | ⟨id, frame, waiting, failure, hpop, hfail, hresult, hlog⟩
  · rw [hlog, hresult]
    refine ⟨by omega, ?_⟩
    intro limit hlimit
    contradiction
  · -- The block that the last visit was to go to had been waiting, so there was room for it.
    have hpopped := Worklist.potential_pop problem.method.changes hpop
    have hlast := problem.length_visitsOf_visit q id frame waiting
    rw [hlog, hresult, List.length_append]
    refine ⟨by omega, ?_⟩
    intro limit hlimit
    rw [Except.error.injEq] at hlimit
    subst hlimit
    have hreached := limitReached?_of_visit hfail
    unfold Settings.limitReached? at hreached
    rw [Option.filter_eq_some_iff, decide_eq_true_eq] at hreached
    exact ⟨hreached.1, by omega⟩

theorem outcome_within_bound (problem : Problem) :
    (visitsOf problem.outcome.log).length ≤ problem.visitBound ∧
      ∀ limit, problem.outcome.result = .error (.visitLimit limit) →
        problem.settings.visitLimit = some limit ∧ limit < problem.visitBound := by
  rcases hfault : problem.graph.fault? problem.method.instructions.length with _ | fault
  · rcases hentry : problem.method.entryFrame with fault | entry
    · simp [outcome, hfault, hentry, Report.failure]
    · obtain ⟨w, hbegins, hresult, hlog⟩ := outcome_of_begins hfault hentry
      rw [hlog, hresult]
      exact run_within_bound hbegins
  · simp [outcome, hfault, Report.failure]

end Problem

/-- An analysis ends within its bound, whatever the limit, and a limit at or above the bound
does not stop it. -/
theorem analysis_ends_within_its_bound (settings : Settings) (method : Method) (graph : Graph) :
    (visitsOf (analyze settings method graph).log).length
        ≤ graph.size * (1 + 2 * (method.maxLocals + max method.maxStack 1)) ∧
      ∀ n, settings.visitLimit = some n →
        graph.size * (1 + 2 * (method.maxLocals + max method.maxStack 1)) ≤ n →
        ∀ error limit, (analyze settings method graph).result = .error error →
          error.failure ≠ .visitLimit limit := by
  obtain ⟨hvisits, hlimit⟩ := Problem.outcome_within_bound ⟨settings, method, graph⟩
  refine ⟨hvisits, ?_⟩
  intro n hn hle error limit herror hfailure
  have houtcome := outcome_of_analyze_error herror
  rw [hfailure] at houtcome
  obtain ⟨hn', hlt⟩ := hlimit limit houtcome
  rw [hn, Option.some.injEq] at hn'
  subst hn'
  exact absurd hle (Nat.not_le_of_lt hlt)

/-- A limit at the bound of a small method. -/
theorem countdown_ends_within_its_bound :
    (visitsOf (analyze ⟨some 28, .throwable⟩ countdown countdownGraph).log).length ≤ 28 ∧
      ∀ error limit,
        (analyze ⟨some 28, .throwable⟩ countdown countdownGraph).result = .error error →
          error.failure ≠ .visitLimit limit :=
  let bounded := analysis_ends_within_its_bound ⟨some 28, .throwable⟩ countdown countdownGraph
  ⟨bounded.1, bounded.2 28 rfl (by decide)⟩

end SymbolicFrames
