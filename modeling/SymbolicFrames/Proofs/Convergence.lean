-- How the frames on entry to the blocks come to rest. They start out with all that is known on
-- the first way there and only ever lose some of it. Main statement: between any two moments of
-- an analysis a frame keeps its shape, each of its values has at most been joined with others,
-- a literal that is gone stays away, and no place ever holds more than three values.
import Mathlib.Data.Finset.Card
import SymbolicFrames.Proofs.Execution
import SymbolicFrames.Proofs.Moments
import SymbolicFrames.Proofs.Termination

namespace SymbolicFrames

/-! ## Values -/

namespace Value

theorem Absorbs.no_literal {v w : Value} (h : v.Absorbs w) (hw : w.hasLiteral = false) :
    v.hasLiteral = false := by
  rcases absorbs_iff.mp h with rfl | rfl | ⟨rfl, -⟩
  · exact hw
  · rfl
  · rfl

theorem Absorbs.rank_lt {v w : Value} (h : v.Absorbs w) (hne : w ≠ v) : v.rank < w.rank := by
  have hmerge : w.merge v = v := (merge_comm w v).trans h
  have hlt : (w.merge v).rank < w.rank := rank_merge_lt (hmerge.symm ▸ Ne.symm hne)
  rw [hmerge] at hlt
  exact hlt

/-- Values of which each absorbs those before it are three at most, as only so many differ in
rank. -/
theorem card_le_three {vs : List Value} (h : vs.Pairwise fun v w => w.Absorbs v) :
    vs.toFinset.card ≤ 3 := by
  have hsymm : vs.Pairwise fun v w => v.Absorbs w ∨ w.Absorbs v := h.imp Or.inr
  have : Std.Symm fun v w : Value => v.Absorbs w ∨ w.Absorbs v := ⟨fun _ _ => Or.symm⟩
  rw [← Finset.card_range 3]
  apply Finset.card_le_card_of_injOn rank
  · intro v _
    have := v.rank_le
    rw [Finset.mem_coe, Finset.mem_range]
    omega
  · intro v hv w hw heq
    rw [Finset.mem_coe, List.mem_toFinset] at hv hw
    by_contra hne
    rcases hsymm.forall hv hw hne with habsorbs | habsorbs
    · have := habsorbs.rank_lt (Ne.symm hne)
      omega
    · have := habsorbs.rank_lt hne
      omega

end Value

/-! ## Frames -/

/-- A place for a value in a frame. -/
inductive Place where
  | slot (n : Slot)
  | operand (n : Nat)
deriving DecidableEq

namespace Frame

def valueAt? (f : Frame) : Place → Option Value
  | .slot n => f.locals[n]?
  | .operand n => f.stack[n]?

/-- What a frame may become: the shape stays, a value becomes its join with another, and a
literal that is not there does not come. -/
structure FadesTo (f f' : Frame) : Prop where
  locals_eq : f'.locals.length = f.locals.length
  height_eq : f'.stack.length = f.stack.length
  merged : ∀ {place v v'}, f.valueAt? place = some v → f'.valueAt? place = some v' →
    v.merge v' = v'
  no_literal : ∀ {place v v'}, f.valueAt? place = some v → f'.valueAt? place = some v' →
    v.hasLiteral = false → v'.hasLiteral = false

theorem Absorbs.valueAt? {f f' : Frame} (h : f'.Absorbs f) {place : Place} {v v' : Value}
    (hv : f.valueAt? place = some v) (hv' : f'.valueAt? place = some v') : v'.Absorbs v := by
  obtain ⟨hlocals, hstack⟩ := absorbs_iff.mp h
  have hrel : Option.Rel Value.Absorbs (f'.valueAt? place) (f.valueAt? place) := by
    cases place with
    | slot n => exact forall₂_getElem? hlocals n
    | operand n => exact forall₂_getElem? hstack n
  rw [hv, hv'] at hrel
  cases hrel with
  | some habsorbs => exact habsorbs

theorem Absorbs.fadesTo {f f' : Frame} (h : f'.Absorbs f) : f.FadesTo f' := by
  obtain ⟨hlocals, hstack⟩ := absorbs_iff.mp h
  refine ⟨hlocals.length_eq, hstack.length_eq, ?_, ?_⟩
  · intro place v v' hv hv'
    rw [Value.merge_comm]
    exact h.valueAt? hv hv'
  · intro place v v' hv hv' hnone
    exact (h.valueAt? hv hv').no_literal hnone

end Frame

/-! ## Moments -/

namespace Problem

/-- What a place of the frame on entry to a block holds, from moment to moment. -/
def valuesAt (problem : Problem) (id : BlockId) (place : Place) : List Value :=
  problem.moments.filterMap fun w => (w.frameAt? id).bind (·.valueAt? place)

theorem pairwise_valuesAt (problem : Problem) (id : BlockId) (place : Place) :
    (problem.valuesAt id place).Pairwise fun v v' => v'.Absorbs v := by
  apply problem.pairwise_moments.filterMap
  intro w w' hw v hv v' hv'
  obtain ⟨f, hf, hv⟩ := Option.bind_eq_some_iff.mp hv
  obtain ⟨f', hf', hv'⟩ := Option.bind_eq_some_iff.mp hv'
  obtain ⟨g, hg, habsorbs⟩ := hw id f hf
  rw [hf', Option.some.injEq] at hg
  exact (hg ▸ habsorbs).valueAt? hv hv'

theorem precedes_of_le {problem : Problem} {t₁ t₂ : Nat} {w₁ w₂ : Worklist} (hle : t₁ ≤ t₂)
    (h₁ : problem.moments[t₁]? = some w₁) (h₂ : problem.moments[t₂]? = some w₂) :
    w₁.Precedes w₂ := by
  rcases Nat.lt_or_eq_of_le hle with hlt | rfl
  · obtain ⟨hlt₁, rfl⟩ := List.getElem?_eq_some_iff.mp h₁
    obtain ⟨hlt₂, rfl⟩ := List.getElem?_eq_some_iff.mp h₂
    exact List.pairwise_iff_getElem.mp problem.pairwise_moments t₁ t₂ hlt₁ hlt₂ hlt
  · rw [h₁, Option.some.injEq] at h₂
    exact Worklist.precedes_of_entries_eq (h₂ ▸ rfl)

end Problem

/-- A block that has a frame at some moment of an analysis has one at every later moment, which
the earlier one fades to, and no place of it ever holds more than three values. Those moments
are the ones that the report speaks of: each visit starts from a frame of one of them, and the
last has the frames that are recorded where the blocks start. -/
theorem entry_frames_only_fade (settings : Settings) (method : Method) (graph : Graph) :
    (∀ {t₁ t₂ : Nat} {w₁ w₂ : Worklist} {id : BlockId} {f₁ : Frame}, t₁ ≤ t₂ →
      (Problem.moments ⟨settings, method, graph⟩)[t₁]? = some w₁ →
      (Problem.moments ⟨settings, method, graph⟩)[t₂]? = some w₂ →
      w₁.frameAt? id = some f₁ → ∃ f₂, w₂.frameAt? id = some f₂ ∧ f₁.FadesTo f₂) ∧
    (∀ id place,
      (Problem.valuesAt ⟨settings, method, graph⟩ id place).toFinset.card ≤ 3) ∧
    (∀ id f, (id, f) ∈ visitsOf (analyze settings method graph).log →
      ∃ w ∈ Problem.moments ⟨settings, method, graph⟩, w.frameAt? id = some f) ∧
    (∀ frames, (analyze settings method graph).result = .ok frames →
      ∃ w, (Problem.moments ⟨settings, method, graph⟩).getLast? = some w ∧
        ∀ id f, w.frameAt? id = some f ↔
          ∃ b, graph.block? id = some b ∧ frames.before? b.start = some f) := by
  refine ⟨?_, ?_, ?_, ?_⟩
  · intro t₁ t₂ w₁ w₂ id f₁ hle h₁ h₂ hf₁
    obtain ⟨f₂, hf₂, habsorbs⟩ := Problem.precedes_of_le hle h₁ h₂ id f₁ hf₁
    exact ⟨f₂, hf₂, habsorbs.fadesTo⟩
  · intro id place
    exact Value.card_le_three (Problem.pairwise_valuesAt _ id place)
  · intro id f hvisited
    exact Problem.exists_moment_of_visited hvisited
  · intro frames hresult
    exact Problem.getLast?_moments (analyze_eq_ok_iff.mp hresult)

/-! ## A local that three ways disagree on -/

/-- Three ways lead to the last instruction: with a long in the first local, with another long
and with a reference. -/
def eroded : Method where
  owner := .object
  name := ⟨"eroded", rfl⟩
  type := ⟨[], none⟩
  flags := ⟨AccessFlag.static.mask⟩
  maxLocals := 2
  maxStack := 2
  instructions :=
    [.push (.constant (.long 0)), .store .long 0,
      .push (.constant (.long 1)), .store .long 0,
      .push .null, .store .ref 0,
      .returnVoid]

def erodedGraph : Graph where
  nodes :=
    #[⟨⟨0, 2⟩, [⟨3, .normal⟩, ⟨1, .normal⟩, ⟨2, .normal⟩]⟩,
      ⟨⟨2, 4⟩, [⟨3, .normal⟩]⟩,
      ⟨⟨4, 6⟩, [⟨3, .normal⟩]⟩,
      ⟨⟨6, 7⟩, []⟩]
  dangling := []

def erodedFrame (first : Value) : Frame :=
  { locals := [first, .uninitialized], stack := [], maxStack := 2 }

def erodedProblem : Problem := ⟨.default, eroded, erodedGraph⟩

def erodedMoments : List Worklist :=
  let blank := Worklist.ofSize 4
  let entered := blank.setEntry Graph.entry (erodedFrame .uninitialized)
  blank :: entered :: (erodedProblem.laterWithin 10 (erodedProblem.start entered)).getD []

theorem moments_eroded : erodedProblem.moments = erodedMoments := by
  apply Problem.moments_of_laterWithin 10
  · cbv
  · decide +kernel
  · decide +kernel

/-- The last block is reached with the long. When the other long gets there only the width is
left of the two, and then the reference leaves nothing. -/
theorem eroded_local_fades_twice :
    erodedProblem.moments[3]?.bind (·.frameAt? 3) = some (erodedFrame (.long (some 0))) ∧
      erodedProblem.moments[8]?.bind (·.frameAt? 3) = some (erodedFrame .wideTop) ∧
      (erodedFrame (.long (some 0))).FadesTo (erodedFrame .wideTop) ∧
      erodedProblem.valuesAt 3 (.slot 0)
        = List.replicate 5 (.long (some 0)) ++ [.wideTop, .wideTop, .top, .top] ∧
      (erodedProblem.valuesAt 3 (.slot 0)).toFinset.card ≤ 3 := by
  obtain ⟨hfades, hcard, -⟩ := entry_frames_only_fade .default eroded erodedGraph
  have hearly : erodedProblem.moments[3]?.bind (·.frameAt? 3)
      = some (erodedFrame (.long (some 0))) := by
    rw [moments_eroded]
    decide +kernel
  have hlate : erodedProblem.moments[8]?.bind (·.frameAt? 3) = some (erodedFrame .wideTop) := by
    rw [moments_eroded]
    decide +kernel
  obtain ⟨w₁, hw₁, hf₁⟩ := Option.bind_eq_some_iff.mp hearly
  obtain ⟨w₂, hw₂, hf₂⟩ := Option.bind_eq_some_iff.mp hlate
  obtain ⟨f₂, hf₂', hfade⟩ := hfades (by decide) hw₁ hw₂ hf₁
  rw [hf₂, Option.some.injEq] at hf₂'
  refine ⟨hearly, hlate, hf₂' ▸ hfade, ?_, hcard 3 (.slot 0)⟩
  rw [Problem.valuesAt, moments_eroded]
  decide +kernel

end SymbolicFrames
