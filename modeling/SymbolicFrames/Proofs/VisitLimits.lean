-- What a limit on the number of visits does to an analysis. Up to the limit it makes the same
-- visits as without one. Main statement: if the analysis makes no more visits than allowed,
-- the limit does not show in its result, and if it makes more, the limit is all the result
-- tells.
import SymbolicFrames.Proofs.FixedPoint

namespace SymbolicFrames

namespace Problem

variable {problem : Problem} {entry : Frame}

/-- The same problem under another limit, or under none. -/
def limited (problem : Problem) (limit : Option Nat) : Problem :=
  { problem with settings := { problem.settings with visitLimit := limit } }

/-! ## One visit -/

theorem limitReached?_of_lt {n visits : Nat} (h : visits < n) :
    (problem.limited (some n)).settings.limitReached? visits = none := by
  have hle : ¬ n ≤ visits := Nat.not_le_of_lt h
  simp [limited, Settings.limitReached?, Option.filter, hle]

theorem limitReached?_of_le {n visits : Nat} (h : n ≤ visits) :
    (problem.limited (some n)).settings.limitReached? visits = some n := by
  simp [limited, Settings.limitReached?, Option.filter, h]

theorem limitReached?_unlimited (problem : Problem) (visits : Nat) :
    (problem.limited none).settings.limitReached? visits = none := rfl

/-- Short of the limit, a visit does what it does without one. -/
theorem visit_limited_of_lt {n : Nat} {p : Progress} (h : p.visits < n) (id : BlockId)
    (frame : Frame) (waiting : Worklist) :
    (problem.limited (some n)).visit p id frame waiting
      = (problem.limited none).visit p id frame waiting := by
  unfold visit
  rw [limitReached?_of_lt h, limitReached?_unlimited]
  rfl

/-- At the limit, a visit fails before it does anything. -/
theorem visit_limited_of_le {n : Nat} {p : Progress} (h : n ≤ p.visits) (id : BlockId)
    (frame : Frame) (waiting : Worklist) :
    (problem.limited (some n)).visit p id frame waiting = .failure (.visitLimit n) := by
  unfold visit
  rw [limitReached?_of_le h]

/-! ## All visits -/

/-- Where a block waits, an analysis without a limit makes at least one more visit. -/
theorem visitsOf_visit_unlimited {p : Progress} {id : BlockId} {frame : Frame}
    {waiting : Worklist} (hp : (problem.limited none).Steady entry p)
    (hpop : p.worklist.pop? = some (id, frame, waiting)) :
    visitsOf ((problem.limited none).visit p id frame waiting).log = [(id, frame)] := by
  obtain ⟨-, hframe, -⟩ := Worklist.pop?_cases hp.sound hpop
  obtain ⟨node, hnode⟩ := hp.exists_node hframe
  exact visitsOf_visit (limitReached?_unlimited problem p.visits) hnode frame waiting

/-- Where a block waits and the limit is used up, nothing but the limit shows. -/
theorem result_run_limited_of_le {n : Nat} {p : Progress} {id : BlockId} {frame : Frame}
    {waiting : Worklist} (hpop : p.worklist.pop? = some (id, frame, waiting))
    (h : n ≤ p.visits) :
    ((problem.limited (some n)).run p).result = .error (.visitLimit n) := by
  rw [run_of_waiting hpop, visit_limited_of_le h]
  rfl

/-- From any point that an analysis can come to, the limit cuts off exactly what would be
visited beyond it. -/
theorem result_run_limited {n : Nat} {p : Progress}
    (hvalid : problem.graph.Valid problem.method.instructions.length)
    (hp : (problem.limited none).Steady entry p) (hn : p.visits ≤ n) :
    ((problem.limited (some n)).run p).result =
      if p.visits + (visitsOf ((problem.limited none).run p).log).length ≤ n then
        ((problem.limited none).run p).result
      else
        .error (.visitLimit n) := by
  -- Both analyses make the same visits, so the one without a limit leads the induction.
  fun_induction (problem.limited none).run p with
  | case1 p hstep =>
    rw [step?, Option.map_eq_none_iff] at hstep
    rw [run_of_idle hstep]
    exact (if_pos hn).symm
  | case2 p report hstep failure hfail =>
    rw [step?, Option.map_eq_some_iff] at hstep
    obtain ⟨⟨id, frame, waiting⟩, hpop, rfl⟩ := hstep
    have hvisit := visitsOf_visit_unlimited hp hpop
    simp only [hvisit, List.length_singleton]
    rcases Nat.lt_or_ge p.visits n with hlt | hge
    · rw [if_pos (Nat.succ_le_of_lt hlt), run_of_waiting hpop, visit_limited_of_lt hlt,
        Report.andThen, hfail]
    · rw [if_neg (by omega), result_run_limited_of_le hpop hge]
  | case3 p report hstep next hnext ih =>
    rw [step?, Option.map_eq_some_iff] at hstep
    obtain ⟨⟨id, frame, waiting⟩, hpop, rfl⟩ := hstep
    have hvisit := visitsOf_visit_unlimited hp hpop
    simp only [Report.after, visitsOf_append, hvisit, List.length_append, List.length_singleton,
      ← Nat.add_assoc]
    rcases Nat.lt_or_ge p.visits n with hlt | hge
    · obtain ⟨-, -, -, -, -, -, hcount⟩ := visit_cases hnext
      have hrest := ih (steady_visit hvalid hp hpop hnext) (hcount ▸ hlt)
      rw [hcount] at hrest
      rw [← hrest, run_of_waiting hpop, visit_limited_of_lt hlt, Report.andThen, hnext]
      rfl
    · rw [if_neg (by omega), result_run_limited_of_le hpop hge]

/-! ## The whole analysis -/

theorem result_outcome_limited (problem : Problem) (n : Nat) :
    (problem.limited (some n)).outcome.result =
      if (visitsOf (problem.limited none).outcome.log).length ≤ n then
        (problem.limited none).outcome.result
      else
        .error (.visitLimit n) := by
  rcases hfault : problem.graph.fault? problem.method.instructions.length with _ | fault
  · rcases hentry : problem.method.entryFrame with fault | entry
    · simp [outcome, limited, hfault, hentry, Report.failure]
    · obtain ⟨w, hbegins, hresult, hlog⟩ :=
        @outcome_of_begins (problem.limited none) entry hfault hentry
      obtain ⟨w', ⟨-, -, rfl⟩, hresult', -⟩ :=
        @outcome_of_begins (problem.limited (some n)) entry hfault hentry
      have hrun := result_run_limited (n := n) hbegins.valid (steady_start hbegins) (Nat.zero_le n)
      rw [start, Nat.zero_add] at hrun
      rw [hresult, hlog, hresult']
      obtain ⟨-, -, rfl⟩ := hbegins
      exact hrun
  · simp [outcome, limited, hfault, Report.failure]

end Problem

theorem result_analyze_limited (method : Method) (graph : Graph) (exception : ClassName)
    (n : Nat) :
    (analyze ⟨some n, exception⟩ method graph).result =
      if (visitsOf (analyze ⟨none, exception⟩ method graph).log).length ≤ n then
        (analyze ⟨none, exception⟩ method graph).result
      else
        .error ⟨method.text, .visitLimit n⟩ := by
  have houtcome := Problem.result_outcome_limited ⟨⟨none, exception⟩, method, graph⟩ n
  unfold Problem.limited at houtcome
  rw [visitsOf_analyze]
  unfold analyze
  simp only [houtcome]
  split <;> rfl

/-- A limit shows in the result of an analysis as itself or not at all. Where it does not
show, no higher one does. It shows exactly if the analysis makes more visits than it allows. -/
theorem limit_shows_as_itself_or_not_at_all (method : Method) (graph : Graph)
    (exception : ClassName) (n : Nat) :
    ((analyze ⟨some n, exception⟩ method graph).result = .error ⟨method.text, .visitLimit n⟩ ∨
      (analyze ⟨some n, exception⟩ method graph).result
        = (analyze ⟨none, exception⟩ method graph).result) ∧
    ((analyze ⟨some n, exception⟩ method graph).result ≠ .error ⟨method.text, .visitLimit n⟩ →
      ∀ m, n ≤ m → (analyze ⟨some m, exception⟩ method graph).result
        = (analyze ⟨some n, exception⟩ method graph).result) ∧
    (analyze ⟨some n, exception⟩ method graph).result =
      if (visitsOf (analyze ⟨none, exception⟩ method graph).log).length ≤ n then
        (analyze ⟨none, exception⟩ method graph).result
      else
        .error ⟨method.text, .visitLimit n⟩ := by
  have hcut := result_analyze_limited method graph exception
  refine ⟨?_, ?_, hcut n⟩
  · rw [hcut n]
    split
    · exact Or.inr rfl
    · exact Or.inl rfl
  · intro hne m hm
    have hvisits : (visitsOf (analyze ⟨none, exception⟩ method graph).log).length ≤ n := by
      by_contra hmore
      exact hne ((hcut n).trans (if_neg hmore))
    rw [hcut m, hcut n, if_pos hvisits, if_pos (Nat.le_trans hvisits hm)]

/-- Four visits are all that the loop with its handler takes. -/
theorem countdown_is_not_cut_off_after_four_visits :
    (analyze ⟨some 4, .throwable⟩ countdown countdownGraph).result = .ok countdownFrames ∧
      ∀ m, 4 ≤ m →
        (analyze ⟨some m, .throwable⟩ countdown countdownGraph).result = .ok countdownFrames := by
  have hfour : (analyze ⟨some 4, .throwable⟩ countdown countdownGraph).result
      = .ok countdownFrames :=
    result_analyze_of_runWithin 10 (countdownFrame (.int none) .uninitialized []) (by cbv)
      (by decide +kernel) (by decide +kernel)
  obtain ⟨-, hhigher, -⟩ :=
    limit_shows_as_itself_or_not_at_all countdown countdownGraph .throwable 4
  refine ⟨hfour, ?_⟩
  intro m hm
  rw [hhigher (by simp [hfour]) m hm, hfour]

end SymbolicFrames
