-- Joins of many values and of many frames. What comes out is the least that absorbs all that
-- went in, so it depends on neither the order nor the brackets. Main statement: values that
-- all agree are kept, wide values that do not leave their width, and all others nothing; frames
-- of one shape can be joined in any order, and each of their slots is joined in this way.
import SymbolicFrames.Proofs.Convergence

namespace SymbolicFrames

/-! ## Values -/

namespace Value

/-- What a join of values comes to: their common value, or what is left of them. -/
def consensus (v : Value) (others : List Value) : Value :=
  if ∀ w ∈ others, w = v then v
  else if ∀ w ∈ v :: others, w.width = 2 then .wideTop
  else .top

/-- The least value that absorbs all of these. -/
structure IsJoin (u : Value) (vs : List Value) : Prop where
  absorbs : ∀ v ∈ vs, u.Absorbs v
  least : ∀ w : Value, (∀ v ∈ vs, w.Absorbs v) → w.Absorbs u

theorem IsJoin.unique {u u' : Value} {vs vs' : List Value} (h : u.IsJoin vs) (h' : u'.IsJoin vs')
    (hmem : ∀ v, v ∈ vs ↔ v ∈ vs') : u = u' := by
  apply Absorbs.antisymm
  · exact h'.least u fun v hv => h.absorbs v ((hmem v).mpr hv)
  · exact h.least u' fun v hv => h'.absorbs v ((hmem v).mp hv)

theorem isJoin_singleton (v : Value) : v.IsJoin [v] := by
  refine ⟨?_, ?_⟩
  · intro w hw
    rw [List.mem_singleton.mp hw]
    exact v.absorbs_self
  · intro w hw
    exact hw v (List.mem_singleton_self v)

theorem IsJoin.merge {u u' : Value} {vs vs' : List Value} (h : u.IsJoin vs) (h' : u'.IsJoin vs') :
    (u.merge u').IsJoin (vs ++ vs') := by
  refine ⟨?_, ?_⟩
  · intro v hv
    rcases List.mem_append.mp hv with hv | hv
    · exact (u.merge_absorbs_left u').trans (h.absorbs v hv)
    · exact (u.merge_absorbs_right u').trans (h'.absorbs v hv)
  · intro w hw
    exact (h.least w fun v hv => hw v (List.mem_append_left _ hv)).merge
      (h'.least w fun v hv => hw v (List.mem_append_right _ hv))

theorem top_absorbs (v : Value) : top.Absorbs v := absorbs_iff.mpr (Or.inr (Or.inl rfl))

theorem wideTop_absorbs_iff {v : Value} : wideTop.Absorbs v ↔ v.width = 2 := by
  rw [absorbs_iff]
  constructor
  · rintro (rfl | h | ⟨-, hwide⟩)
    · rfl
    · cases h
    · exact hwide
  · intro hwide
    exact Or.inr (Or.inr ⟨rfl, hwide⟩)

/-- Only what is left of disagreement absorbs values that disagree. -/
theorem Absorbs.of_ne {u v w : Value} (hv : u.Absorbs v) (hw : u.Absorbs w) (hne : v ≠ w) :
    u = .top ∨ u = .wideTop := by
  rcases absorbs_iff.mp hv with rfl | rfl | ⟨rfl, -⟩
  · rcases absorbs_iff.mp hw with rfl | rfl | ⟨rfl, -⟩
    · exact absurd rfl hne
    · exact Or.inl rfl
    · exact Or.inr rfl
  · exact Or.inl rfl
  · exact Or.inr rfl

/-- The closed form is the least value that absorbs all of them. -/
theorem isJoin_consensus (v : Value) (others : List Value) :
    (consensus v others).IsJoin (v :: others) := by
  unfold consensus
  by_cases hsame : ∀ w ∈ others, w = v
  · rw [if_pos hsame]
    refine ⟨?_, fun u hu => hu v List.mem_cons_self⟩
    intro w hw
    rcases List.mem_cons.mp hw with rfl | hw
    · exact w.absorbs_self
    · rw [hsame w hw]
      exact v.absorbs_self
  · rw [if_neg hsame]
    -- What absorbs them all absorbs two that disagree.
    have hleft : ∀ u : Value, (∀ w ∈ v :: others, u.Absorbs w) → u = .top ∨ u = .wideTop := by
      intro u hu
      push Not at hsame
      obtain ⟨w, hw, hne⟩ := hsame
      exact (hu w (List.mem_cons_of_mem v hw)).of_ne (hu v List.mem_cons_self) hne
    by_cases hwide : ∀ w ∈ v :: others, w.width = 2
    · rw [if_pos hwide]
      refine ⟨fun w hw => wideTop_absorbs_iff.mpr (hwide w hw), ?_⟩
      intro u hu
      rcases hleft u hu with rfl | rfl
      · exact top_absorbs _
      · exact absorbs_self _
    · rw [if_neg hwide]
      refine ⟨fun w _ => top_absorbs w, ?_⟩
      intro u hu
      rcases hleft u hu with rfl | rfl
      · exact absorbs_self _
      · exact absurd (fun w hw => wideTop_absorbs_iff.mp (hu w hw)) hwide

theorem isJoin_foldl_merge (v : Value) (others : List Value) :
    (others.foldl merge v).IsJoin (v :: others) := by
  induction others using List.reverseRecOn with
  | nil => exact isJoin_singleton v
  | append_singleton others w ih =>
    rw [List.foldl_concat, ← List.cons_append]
    exact ih.merge (isJoin_singleton w)

theorem foldl_merge_eq_consensus (v : Value) (others : List Value) :
    others.foldl merge v = consensus v others :=
  (isJoin_foldl_merge v others).unique (isJoin_consensus v others) fun _ => Iff.rfl

theorem consensus_perm {v w : Value} {vs ws : List Value} (h : (v :: vs).Perm (w :: ws)) :
    consensus v vs = consensus w ws :=
  (isJoin_consensus v vs).unique (isJoin_consensus w ws) fun _ => h.mem_iff

end Value

/-- A way to join values: in what order, and with what brackets. -/
inductive Joining where
  | value (v : Value)
  | join (left right : Joining)

namespace Joining

def values : Joining → List Value
  | .value v => [v]
  | .join left right => left.values ++ right.values

def result : Joining → Value
  | .value v => v
  | .join left right => left.result.merge right.result

theorem isJoin_result (t : Joining) : t.result.IsJoin t.values := by
  induction t with
  | value v => exact v.isJoin_singleton
  | join left right ihl ihr => exact ihl.merge ihr

theorem result_eq_consensus {t : Joining} {v : Value} {others : List Value}
    (h : t.values.Perm (v :: others)) : t.result = v.consensus others :=
  t.isJoin_result.unique (v.isJoin_consensus others) fun _ => h.mem_iff

end Joining

namespace Value

/-- Each value of a chain that leaves some of the one before has a lower rank. -/
theorem length_tail_le_rank {v : Value} {rest : List Value}
    (h : (v :: rest).IsChain fun v w => v.merge w = w ∧ v ≠ w) : rest.length ≤ v.rank := by
  induction rest generalizing v with
  | nil => exact Nat.zero_le _
  | cons w rest ih =>
    obtain ⟨⟨hmerge, hne⟩, hrest⟩ := List.isChain_cons_cons.mp h
    have hrank : w.rank < v.rank := Absorbs.rank_lt ((merge_comm w v).trans hmerge) hne
    have hlength := ih hrest
    rw [List.length_cons]
    omega

theorem length_chain_le_three {chain : List Value}
    (h : chain.IsChain fun v w => v.merge w = w ∧ v ≠ w) : chain.length ≤ 3 := by
  cases chain with
  | nil => exact Nat.zero_le 3
  | cons v rest =>
    have hlength := length_tail_le_rank h
    have hrank := v.rank_le
    rw [List.length_cons]
    omega

end Value

/-! ## Frames -/

namespace Frame

/-- As many locals, a stack as high, and the same limit. -/
structure SameShape (f g : Frame) : Prop where
  locals_eq : f.locals.length = g.locals.length
  height_eq : f.stack.length = g.stack.length
  maxStack_eq : f.maxStack = g.maxStack

variable {f g h : Frame}

theorem SameShape.refl (f : Frame) : f.SameShape f := ⟨rfl, rfl, rfl⟩

theorem SameShape.symm (hfg : f.SameShape g) : g.SameShape f :=
  ⟨hfg.locals_eq.symm, hfg.height_eq.symm, hfg.maxStack_eq.symm⟩

theorem SameShape.trans (hfg : f.SameShape g) (hgh : g.SameShape h) : f.SameShape h :=
  ⟨hfg.locals_eq.trans hgh.locals_eq, hfg.height_eq.trans hgh.height_eq,
    hfg.maxStack_eq.trans hgh.maxStack_eq⟩

theorem sameShape_join (hlocals : f.locals.length = g.locals.length)
    (hstack : f.stack.length = g.stack.length) : f.SameShape (f.join g) := by
  refine ⟨?_, ?_, rfl⟩
  · simp [join, hlocals]
  · simp [join, hstack]

/-- What has a place in a frame has one in every frame of the shape. -/
theorem SameShape.exists_valueAt? (hfg : f.SameShape g) {place : Place} {v : Value}
    (hv : f.valueAt? place = some v) : ∃ w, g.valueAt? place = some w := by
  cases place with
  | slot n =>
    obtain ⟨hlt, -⟩ := List.getElem?_eq_some_iff.mp hv
    exact ⟨_, List.getElem?_eq_getElem (hfg.locals_eq ▸ hlt)⟩
  | operand n =>
    obtain ⟨hlt, -⟩ := List.getElem?_eq_some_iff.mp hv
    exact ⟨_, List.getElem?_eq_getElem (hfg.height_eq ▸ hlt)⟩

/-- Frames of one shape are told apart by what they hold somewhere. -/
theorem SameShape.ext (hfg : f.SameShape g)
    (hvalues : ∀ place v, f.valueAt? place = some v → g.valueAt? place = some v) : f = g := by
  have hplaces : ∀ place, f.valueAt? place = g.valueAt? place := by
    intro place
    rcases hv : f.valueAt? place with _ | v
    · rcases hw : g.valueAt? place with _ | w
      · rfl
      · obtain ⟨v, hv'⟩ := hfg.symm.exists_valueAt? hw
        rw [hv] at hv'
        cases hv'
    · exact (hvalues place v hv).symm
  have hlocals : f.locals = g.locals := List.ext_getElem? fun n => hplaces (.slot n)
  have hstack : f.stack = g.stack := List.ext_getElem? fun n => hplaces (.operand n)
  have hmax := hfg.maxStack_eq
  cases f
  cases g
  rw [Frame.mk.injEq]
  exact ⟨hlocals, hstack, hmax⟩

theorem valueAt?_join {place : Place} {v w : Value} (hv : f.valueAt? place = some v)
    (hw : g.valueAt? place = some w) : (f.join g).valueAt? place = some (v.merge w) := by
  cases place with
  | slot n => exact List.getElem?_zipWith_eq_some.mpr ⟨v, w, hv, hw, rfl⟩
  | operand n => exact List.getElem?_zipWith_eq_some.mpr ⟨v, w, hv, hw, rfl⟩

/-- Joins frames into another, one after the other. -/
def mergeAll (f : Frame) : List Frame → Except Fault Frame
  | [] => .ok f
  | g :: rest => do
    let (merged, _) ← f.merge g
    merged.mergeAll rest

/-- What frames hold in one place, one after the other. -/
def valuesAt (frames : List Frame) (place : Place) : List Value :=
  frames.filterMap fun f => f.valueAt? place

theorem valuesAt_cons {place : Place} {v : Value} (hv : f.valueAt? place = some v)
    (rest : List Frame) : valuesAt (f :: rest) place = v :: valuesAt rest place :=
  List.filterMap_cons_some hv

/-- What frames of one shape come to when they are joined: a frame of this shape with, in each
place, what is left of the values there. -/
structure IsJoin (merged f : Frame) (others : List Frame) : Prop where
  shape : f.SameShape merged
  value : ∀ {place v}, f.valueAt? place = some v →
    merged.valueAt? place = some (v.consensus (valuesAt others place))

/-- Frames of one shape can always be joined. -/
theorem exists_mergeAll {others : List Frame} (hshape : ∀ g ∈ others, f.SameShape g) :
    ∃ merged, f.mergeAll others = .ok merged ∧ merged.IsJoin f others := by
  induction others generalizing f with
  | nil =>
    refine ⟨f, rfl, .refl f, ?_⟩
    intro place v hv
    rw [hv, ← Value.foldl_merge_eq_consensus]
    rfl
  | cons g rest ih =>
    have hfg := hshape g List.mem_cons_self
    have hmerge : f.merge g = .ok (f.join g, decide (f.join g ≠ f)) :=
      merge_eq_ok_iff.mpr ⟨hfg.height_eq, hfg.locals_eq, rfl, rfl⟩
    have hjoined : f.SameShape (f.join g) := sameShape_join hfg.locals_eq hfg.height_eq
    have hrest : ∀ k ∈ rest, (f.join g).SameShape k := fun k hk =>
      hjoined.symm.trans (hshape k (List.mem_cons_of_mem g hk))
    obtain ⟨merged, hmerged, hjoin⟩ := ih hrest
    refine ⟨merged, ?_, hjoined.trans hjoin.shape, ?_⟩
    · rw [mergeAll, hmerge]
      exact hmerged
    · intro place v hv
      obtain ⟨w, hw⟩ := hfg.exists_valueAt? hv
      rw [hjoin.value (valueAt?_join hv hw), valuesAt_cons hw,
        ← Value.foldl_merge_eq_consensus, ← Value.foldl_merge_eq_consensus, List.foldl_cons]

theorem IsJoin.unique {merged merged' : Frame} {others rest : List Frame}
    (hf : merged.IsJoin f others) (hg : merged'.IsJoin g rest) (hfg : f.SameShape g)
    (hperm : (f :: others).Perm (g :: rest)) : merged = merged' := by
  have hshape : merged.SameShape merged' := hf.shape.symm.trans (hfg.trans hg.shape)
  apply hshape.ext
  intro place u hu
  obtain ⟨v, hv⟩ := hf.shape.symm.exists_valueAt? hu
  obtain ⟨w, hw⟩ := hfg.exists_valueAt? hv
  have hvalues : (valuesAt (f :: others) place).Perm (valuesAt (g :: rest) place) :=
    hperm.filterMap _
  rw [valuesAt_cons hv, valuesAt_cons hw] at hvalues
  rw [hg.value hw, ← Value.consensus_perm hvalues, ← hf.value hv, hu]

/-- The order in which frames are joined does not show. -/
theorem mergeAll_perm {others rest : List Frame} (hshape : ∀ g ∈ others, f.SameShape g)
    (hperm : (g :: rest).Perm (f :: others)) : g.mergeAll rest = f.mergeAll others := by
  have hall : ∀ k ∈ g :: rest, f.SameShape k := by
    intro k hk
    rcases List.mem_cons.mp (hperm.mem_iff.mp hk) with rfl | hk
    · exact .refl k
    · exact hshape k hk
  have hfg : f.SameShape g := hall g List.mem_cons_self
  obtain ⟨merged, hmerged, hjoin⟩ := exists_mergeAll hshape
  obtain ⟨merged', hmerged', hjoin'⟩ := exists_mergeAll fun k hk =>
    hfg.symm.trans (hall k (List.mem_cons_of_mem g hk))
  rw [hmerged, hmerged', hjoin.unique hjoin' hfg hperm.symm]

end Frame

/-- Joining is independent of order. Values come to their common value if they all agree, else
to a wide value of unknown category if they are all wide, else to nothing, whatever the order
and the brackets. Frames of one shape can always be joined, every order gives the same frame,
and each place of it holds what the values there come to. -/
theorem joins_do_not_depend_on_order :
    (∀ (t : Joining) v others, t.values.Perm (v :: others) → t.result = v.consensus others) ∧
    (∀ v others w rest, (w :: rest).Perm (v :: others) →
      rest.foldl Value.merge w = v.consensus others) ∧
    (∀ u v w : Value, (u.merge v).merge w = u.merge (v.merge w)) ∧
    (∀ v w : Value, v.merge w = w.merge v) ∧
    (∀ v : Value, v.merge v = v) ∧
    (∀ v w : Value, (v.merge w).width = min v.width w.width) ∧
    (∀ chain : List Value, chain.IsChain (fun v w => v.merge w = w ∧ v ≠ w) →
      chain.length ≤ 3) ∧
    ∀ f others, (∀ g ∈ others, Frame.SameShape f g) →
      ∃ merged, (∀ g rest, (g :: rest).Perm (f :: others) → g.mergeAll rest = .ok merged) ∧
        f.SameShape merged ∧
        ∀ place v, f.valueAt? place = some v →
          merged.valueAt? place = some (v.consensus (Frame.valuesAt others place)) := by
  refine ⟨fun t v others => Joining.result_eq_consensus, ?_, Value.merge_assoc, Value.merge_comm,
    Value.merge_self, Value.width_merge, fun chain => Value.length_chain_le_three, ?_⟩
  · intro v others w rest hperm
    rw [Value.foldl_merge_eq_consensus, Value.consensus_perm hperm]
  · intro f others hshape
    obtain ⟨merged, hmerged, hjoin⟩ := Frame.exists_mergeAll hshape
    refine ⟨merged, ?_, hjoin.shape, fun place v hv => hjoin.value hv⟩
    intro g rest hperm
    rw [Frame.mergeAll_perm hshape hperm, hmerged]

/-! ## Three values in a place -/

/-- The three values that `eroded` has for its first local, first as they come and then the
other way round. What becomes of them on the way is a chain of three. -/
theorem eroded_values_join_to_nothing_in_any_order :
    [Value.long (some 0), .wideTop, .top].IsChain (fun v w => v.merge w = w ∧ v ≠ w) ∧
    [Value.long (some 0), .wideTop, .top].length ≤ 3 ∧
    (Joining.join (.value .null) (.join (.value (.long (some 1))) (.value (.long (some 0))))).result
      = Value.consensus (.long (some 0)) [.long (some 1), .null] ∧
    [Value.long (some 1), .long (some 0)].foldl Value.merge .null
      = Value.consensus (.long (some 0)) [.long (some 1), .null] ∧
    Frame.mergeAll (erodedFrame (.long (some 0)))
      [erodedFrame (.long (some 1)), erodedFrame .null] = .ok (erodedFrame .top) ∧
    Frame.mergeAll (erodedFrame .null)
      [erodedFrame (.long (some 1)), erodedFrame (.long (some 0))] = .ok (erodedFrame .top) := by
  obtain ⟨htree, hfold, -, -, -, -, hchain, hframes⟩ := joins_do_not_depend_on_order
  have hfades : [Value.long (some 0), .wideTop, .top].IsChain
      (fun v w => v.merge w = w ∧ v ≠ w) := by decide
  have hshape : ∀ g ∈ [erodedFrame (.long (some 1)), erodedFrame .null],
      (erodedFrame (.long (some 0))).SameShape g := by
    intro g hg
    rcases List.mem_pair.mp hg with rfl | rfl
    · exact ⟨rfl, rfl, rfl⟩
    · exact ⟨rfl, rfl, rfl⟩
  obtain ⟨merged, hmerged, -⟩ := hframes _ _ hshape
  have hforward : Frame.mergeAll (erodedFrame (.long (some 0)))
      [erodedFrame (.long (some 1)), erodedFrame .null] = .ok (erodedFrame .top) := by decide
  have hsame : merged = erodedFrame .top := by
    have := hmerged _ _ (List.Perm.refl _)
    rw [hforward] at this
    cases this
    rfl
  refine ⟨hfades, hchain _ hfades, htree _ _ _ (by decide), hfold _ _ _ _ (by decide), hforward, ?_⟩
  rw [hmerged _ _ (by decide), hsame]

end SymbolicFrames
