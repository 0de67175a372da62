-- Array types. Putting a type into an array and taking an element out of the array undo each
-- other, as long as the dimensions can be counted. Main statement: an array of many dimensions
-- has as many brackets before its element type, in its descriptor and for its reader alike, and
-- arrays that are made of one another are taken apart down to the reference they were made of,
-- both exactly as long as there is room for the dimensions in a word.
import Mathlib.Logic.Function.Iterate
import SymbolicFrames.Folding.Arity
import SymbolicFrames.Proofs.DescriptorTexts

namespace SymbolicFrames

/-! ## Dimensions and brackets -/

namespace FieldType

/-- Number of array dimensions, zero for what is no array. -/
def dimensions : FieldType → Nat
  | .base _ => 0
  | .ref t => t.dimensions

/-- What is left when all dimensions are gone. -/
def innermost : FieldType → FieldType
  | .base t => .base t
  | .ref (.object name) => .ref (.object name)
  | .ref (.objectArray _ element) => .ref (.object element)
  | .ref (.primitiveArray _ element) => .base element

/-- The type of an array whose elements have this type, as the type of a field. -/
def inArray (t : FieldType) : FieldType := .ref t.array

theorem encode_eq (t : FieldType) :
    t.encode = List.replicate t.dimensions '[' ++ t.innermost.encode := by
  cases t with
  | base base => rfl
  | ref r => cases r <;> rfl

theorem innermost_array (t : FieldType) : (FieldType.ref t.array).innermost = t.innermost := by
  cases t with
  | base base => rfl
  | ref r => cases r <;> rfl

theorem innermost_iterate_inArray (t : FieldType) (n : Nat) :
    (inArray^[n] t).innermost = t.innermost := by
  induction n with
  | zero => rfl
  | succ n ih =>
    rw [Function.iterate_succ_apply', ← ih]
    exact innermost_array _

theorem dimensions_lt (t : FieldType) : t.dimensions < 2 ^ 64 := by
  cases t with
  | base base => exact Nat.two_pow_pos 64
  | ref r =>
    cases r with
    | object name => exact Nat.two_pow_pos 64
    | objectArray extra element => exact (extra + 1).isLt
    | primitiveArray extra element => exact (extra + 1).isLt

/-- One dimension more, counted in a word. -/
theorem dimensions_array (t : FieldType) :
    t.array.dimensions = (t.dimensions + 1) % 2 ^ 64 := by
  cases t with
  | base base => rfl
  | ref r => cases r <;> rfl

theorem dimensions_iterate_inArray (t : FieldType) (n : Nat) :
    (inArray^[n] t).dimensions = (n + t.dimensions) % 2 ^ 64 := by
  induction n with
  | zero => rw [Nat.zero_add, Nat.mod_eq_of_lt t.dimensions_lt, Function.iterate_zero_apply]
  | succ n ih =>
    have harray := dimensions_array (inArray^[n] t)
    rw [ih, Nat.mod_add_mod, Nat.add_right_comm] at harray
    rw [Function.iterate_succ_apply']
    exact harray

/-- What has been put into an array once is a reference. -/
theorem exists_iterate_inArray (t : FieldType) {n : Nat} (hn : 0 < n) :
    ∃ r, inArray^[n] t = .ref r := by
  obtain ⟨m, rfl⟩ := Nat.exists_eq_succ_of_ne_zero (Nat.ne_of_gt hn)
  exact ⟨_, Function.iterate_succ_apply' inArray m t⟩

/-- Every dimension has its bracket, as long as the dimensions can be counted. -/
theorem encode_iterate_inArray {t : FieldType} {n : Nat} (h : n + t.dimensions < 2 ^ 64) :
    (inArray^[n] t).encode = List.replicate n '[' ++ t.encode := by
  rw [encode_eq, innermost_iterate_inArray, dimensions_iterate_inArray, Nat.mod_eq_of_lt h,
    ← List.replicate_append_replicate, List.append_assoc, ← encode_eq]

end FieldType

namespace RefType

/-- What has dimensions has had them counted. -/
theorem countable_of_dimensions_pos {r : RefType} (h : 0 < r.dimensions) : r.Countable := by
  have hcount : ∀ extra : ExtraDims, 0 < extra.all → extra.Countable := by
    intro extra hall
    rw [ExtraDims.all_eq] at hall
    unfold ExtraDims.Countable
    omega
  cases r with
  | object name => trivial
  | objectArray extra element => exact hcount extra h
  | primitiveArray extra element => exact hcount extra h

/-! ## One dimension more or less -/

/-- Number of dimensions before it is put into a word again. -/
def depth : RefType → Nat
  | .object _ => 0
  | .objectArray extra _ => extra.toNat + 1
  | .primitiveArray extra _ => extra.toNat + 1

/-- What is loaded from an array as far as its type tells: an element, or any object. -/
def loaded (a : RefType) : RefType := a.element?.getD (.object .object)

/-- The type can be put into so many arrays before its dimensions are too many for a word. -/
def HasRoom (n : Nat) (r : RefType) : Prop := r.depth + n ≤ 2 ^ 64

theorem depth_le (r : RefType) : r.depth ≤ 2 ^ 64 := by
  cases r with
  | object name => exact Nat.zero_le _
  | objectArray extra element => exact extra.isLt
  | primitiveArray extra element => exact extra.isLt

theorem depth_array {r : RefType} (h : r.depth < 2 ^ 64) : r.array.depth = r.depth + 1 := by
  cases r with
  | object name => rfl
  | objectArray extra element => exact congrArg (· + 1) (BitVec.toNat_add_of_lt h)
  | primitiveArray extra element => exact congrArg (· + 1) (BitVec.toNat_add_of_lt h)

/-- An array that is as deep as can be makes an array of one dimension. -/
theorem depth_array_of_full {r : RefType} (h : r.depth = 2 ^ 64) : r.array.depth = 1 := by
  have hwrap : ∀ extra : ExtraDims, extra.toNat + 1 = 2 ^ 64 → (extra + 1).toNat = 0 := by
    intro extra hextra
    rw [BitVec.toNat_add]
    exact congrArg (· % 2 ^ 64) hextra
  cases r with
  | object name => cases h
  | objectArray extra element => exact congrArg (· + 1) (hwrap extra h)
  | primitiveArray extra element => exact congrArg (· + 1) (hwrap extra h)

theorem depth_loaded (a : RefType) : a.loaded.depth = a.depth - 1 := by
  have hless : ∀ extra : ExtraDims, extra ≠ 0 → (extra - 1).toNat + 1 = extra.toNat := by
    intro extra hextra
    bv_omega
  cases a with
  | object name => rfl
  | objectArray extra element =>
    by_cases hextra : extra = 0
    · subst hextra
      rfl
    · have hloaded : (objectArray extra element).loaded = .objectArray (extra - 1) element :=
        if_neg hextra
      rw [hloaded]
      exact hless extra hextra
  | primitiveArray extra element =>
    by_cases hextra : extra = 0
    · subst hextra
      rfl
    · have hloaded : (primitiveArray extra element).loaded = .primitiveArray (extra - 1) element :=
        congrArg (Option.getD · (object .object)) (if_neg hextra)
      rw [hloaded]
      exact hless extra hextra

theorem element?_array {r : RefType} (h : r.depth < 2 ^ 64) : r.array.element? = some r := by
  have hmore : ∀ extra : ExtraDims, extra.toNat + 1 < 2 ^ 64 → extra + 1 ≠ 0 := by
    intro extra hextra
    bv_omega
  cases r with
  | object name => rfl
  | objectArray extra element =>
    simp only [array, FieldType.array, element?, if_neg (hmore extra h), BitVec.add_sub_cancel]
  | primitiveArray extra element =>
    simp only [array, FieldType.array, element?, if_neg (hmore extra h), BitVec.add_sub_cancel]

theorem loaded_array {r : RefType} (h : r.depth < 2 ^ 64) : r.array.loaded = r := by
  rw [loaded, element?_array h, Option.getD_some]

theorem loaded_of_depth {a : RefType} (h : a.depth = 0) : a.loaded = .object .object := by
  cases a with
  | object name => rfl
  | objectArray extra element => cases h
  | primitiveArray extra element => cases h

theorem array_of_element? {a e : RefType} (h : a.element? = some e) : e.array = a := by
  cases a with
  | object name => cases h
  | objectArray extra element =>
    rw [element?, Option.some.injEq] at h
    subst h
    split
    · rename_i hextra
      rw [hextra]
      rfl
    · exact congrArg (objectArray · element) (BitVec.sub_add_cancel extra 1)
  | primitiveArray extra element =>
    rw [element?] at h
    split at h
    · cases h
    · cases h
      exact congrArg (primitiveArray · element) (BitVec.sub_add_cancel extra 1)

/-- Only arrays of numbers with a single dimension hold no references. -/
theorem exists_element? {a : RefType} (hobject : ∀ name, a ≠ .object name)
    (hnumbers : ∀ element, a ≠ .primitiveArray 0 element) : ∃ e, a.element? = some e := by
  cases a with
  | object name => exact absurd rfl (hobject name)
  | objectArray extra element => exact ⟨_, rfl⟩
  | primitiveArray extra element =>
    by_cases hextra : extra = 0
    · exact absurd (by rw [hextra]) (hnumbers element)
    · exact ⟨_, if_neg hextra⟩

/-! ## Many dimensions -/

theorem depth_iterate_array {r : RefType} {n : Nat} (h : r.HasRoom n) :
    (array^[n] r).depth = r.depth + n := by
  induction n with
  | zero => rfl
  | succ n ih =>
    unfold HasRoom at h ih
    have hn := ih (by omega)
    rw [Function.iterate_succ_apply', depth_array (by omega), hn, Nat.add_assoc]

/-- Where there is no room the count starts again, and then the array is not deep enough for all
that will be loaded from it. -/
theorem depth_iterate_array_le {r : RefType} {n : Nat} (h : ¬ r.HasRoom n) :
    (array^[n] r).depth ≤ n := by
  have hdepth := r.depth_le
  induction n with
  | zero => exact absurd hdepth h
  | succ n ih =>
    rw [Function.iterate_succ_apply']
    by_cases hroom : r.HasRoom n
    · have hn := depth_iterate_array hroom
      unfold HasRoom at h hroom
      rw [depth_array_of_full (by omega)]
      exact Nat.le_add_left 1 n
    · have hn := ih hroom
      rcases Nat.lt_or_eq_of_le (array^[n] r).depth_le with hlt | hfull
      · rw [depth_array hlt]
        exact Nat.succ_le_succ hn
      · rw [depth_array_of_full hfull]
        exact Nat.le_add_left 1 n

theorem depth_iterate_loaded (a : RefType) (n : Nat) : (loaded^[n] a).depth = a.depth - n := by
  induction n with
  | zero => rfl
  | succ n ih => rw [Function.iterate_succ_apply', depth_loaded, ih, Nat.sub_sub]

theorem iterate_loaded_array {r : RefType} {n : Nat} (h : r.HasRoom n) :
    loaded^[n] (array^[n] r) = r := by
  induction n with
  | zero => rfl
  | succ n ih =>
    have hn : r.HasRoom n := Nat.le_of_succ_le h
    have hdepth : (array^[n] r).depth < 2 ^ 64 := by
      rw [depth_iterate_array hn]
      exact h
    rw [Function.iterate_succ_apply loaded, Function.iterate_succ_apply' array,
      loaded_array hdepth, ih hn]

/-- There is nothing but objects in and around what is made of `Object`. -/
def OfObjects (r : RefType) : Prop := (FieldType.ref r).innermost = .ref (.object .object)

theorem OfObjects.loaded {a : RefType} (h : a.OfObjects) : a.loaded.OfObjects := by
  cases he : a.element? with
  | none =>
    rw [RefType.loaded, he, Option.getD_none]
    rfl
  | some e =>
    rw [RefType.loaded, he, Option.getD_some, OfObjects, ← FieldType.innermost_array]
    rw [← array_of_element? he] at h
    exact h

theorem OfObjects.eq_object {r : RefType} (h : r.OfObjects) (hdepth : r.depth = 0) :
    r = .object .object := by
  cases r with
  | object name =>
    injection h
  | objectArray extra element => cases hdepth
  | primitiveArray extra element => cases hdepth

theorem iterate_loaded_array_object (n : Nat) :
    loaded^[n] (array^[n] (.object .object)) = .object .object := by
  by_cases hroom : (object .object).HasRoom n
  · exact iterate_loaded_array hroom
  · have hobjects : (loaded^[n] (array^[n] (.object .object))).OfObjects := by
      have hbuilt : (array^[n] (.object .object)).OfObjects :=
        Function.Iterate.rec OfObjects (rfl : (object .object).OfObjects)
          (fun r h => (FieldType.innermost_array (.ref r)).trans h) n
      exact Function.Iterate.rec OfObjects hbuilt (fun a h => h.loaded) n
    apply hobjects.eq_object
    rw [depth_iterate_loaded, Nat.sub_eq_zero_of_le (depth_iterate_array_le hroom)]

/-- Loading as often as arrays were made leads back exactly if the dimensions could be counted
all the way. Without room, what is reached in the end is just any object. -/
theorem iterate_loaded_array_eq_iff {r : RefType} {n : Nat} :
    loaded^[n] (array^[n] r) = r ↔ r.HasRoom n ∨ r = .object .object := by
  constructor
  · intro h
    by_cases hroom : r.HasRoom n
    · exact Or.inl hroom
    · have hdepth : r.depth = 0 := by
        rw [← h, depth_iterate_loaded, Nat.sub_eq_zero_of_le (depth_iterate_array_le hroom)]
      rw [HasRoom, hdepth, Nat.zero_add, Nat.not_le] at hroom
      obtain ⟨m, rfl⟩ := Nat.exists_eq_add_of_lt hroom
      refine Or.inr (h.symm.trans ?_)
      rw [Function.iterate_succ_apply']
      apply loaded_of_depth
      rw [depth_iterate_loaded, Nat.sub_eq_zero_of_le]
      exact Nat.le_trans (depth_le _) (Nat.le_add_right _ m)
  · rintro (hroom | rfl)
    · exact iterate_loaded_array hroom
    · exact iterate_loaded_array_object n

end RefType

/-! ## Instructions -/

namespace Value

/-- A new array of references like this one, as many as the count says. -/
def newArray (v count : Value) : OptionT (Except Fault) Value := do
  let type ← OptionT.mk (pure v.refType?)
  OptionT.mk ((Instruction.unary (.newRefArray type)).unaryOperation count)

/-- An element of this array of references. -/
def loadElement (v index : Value) : OptionT (Except Fault) Value :=
  OptionT.mk ((Instruction.binary (.arrayLoad .ref)).binaryOperation v index)

theorem newArray_reference (t : RefType) (count : Value) :
    (reference t).newArray count = pure (reference t.array) := rfl

theorem loadElement_reference (a : RefType) (index : Value) :
    (reference a).loadElement index = pure (reference a.loaded) := by
  have helement : arrayElement (reference a) = reference a.loaded := by
    cases he : a.element? <;> simp [arrayElement, RefType.loaded, he, Value.object]
  rw [← helement]
  rfl

/-- Each array is made of the one before. -/
theorem foldlM_newArray (t : RefType) (counts : List Value) :
    counts.foldlM newArray (reference t) =
      (pure (reference (RefType.array^[counts.length] t)) : OptionT (Except Fault) Value) := by
  induction counts generalizing t with
  | nil => rfl
  | cons count counts ih =>
    rw [List.foldlM_cons, newArray_reference, pure_bind, ih, List.length_cons,
      Function.iterate_succ_apply]

/-- Each element is loaded from the one before. -/
theorem foldlM_loadElement (a : RefType) (indices : List Value) :
    indices.foldlM loadElement (reference a) =
      (pure (reference (RefType.loaded^[indices.length] a)) : OptionT (Except Fault) Value) := by
  induction indices generalizing a with
  | nil => rfl
  | cons index indices ih =>
    rw [List.foldlM_cons, loadElement_reference, pure_bind, ih, List.length_cons,
      Function.iterate_succ_apply]

end Value

/-- One dimension less, nothing if there is none to take. -/
def ExtraDims.pred? (extra : ExtraDims) : Option ExtraDims :=
  if extra = 0 then none else some (extra - 1)

/-- The element of an array of references with its dimensions counted down by hand. Nothing
comes out if the count would fall below zero. -/
def elementByCount (array : Value) : Option Value :=
  match array with
  | .reference (.objectArray extra element) =>
    if extra = 0 then some (.object element)
    else extra.pred?.map fun fewer => .reference (.objectArray fewer element)
  | .reference (.primitiveArray extra element) =>
    if extra > 0 then extra.pred?.map fun fewer => .reference (.primitiveArray fewer element)
    else some (.object .object)
  | _ => some (.object .object)

/-- The count is never taken down from zero. -/
theorem elementByCount_eq (array : Value) : elementByCount array = some (arrayElement array) := by
  cases array with
  | reference type =>
    cases type with
    | object name => rfl
    | objectArray extra element =>
      by_cases hextra : extra = 0
      · simp [elementByCount, arrayElement, RefType.element?, hextra, Value.object]
      · simp only [elementByCount, arrayElement, RefType.element?, ExtraDims.pred?,
          if_neg hextra, Option.map_some]
    | primitiveArray extra element =>
      by_cases hextra : extra = 0
      · simp [elementByCount, arrayElement, RefType.element?, hextra]
      · have hpos : extra > 0 := by bv_omega
        simp only [elementByCount, arrayElement, RefType.element?, ExtraDims.pred?,
          if_neg hextra, if_pos hpos, Option.map_some]
  | _ => rfl

/-- Arrays can be built up and taken apart as long as their dimensions can be counted. A type
that is put into an array any number of times has so many dimensions more and so many brackets
before its descriptor, and is read from them again, exactly if so many dimensions fit a word.
Arrays made of a reference and of one another, and then an element taken out of each, lead back
to the reference exactly if there was room for all of them, or if any object will do. Dimensions
are taken down only where there are some. And every array that holds references is the array of
what is loaded from it. -/
theorem arrays_are_taken_apart_as_they_were_built (t : FieldType) (r : RefType) (n : Nat) :
    (0 < n →
      ∃ array, FieldType.inArray^[n] t = .ref array ∧
        (array.dimensions = n + t.dimensions ∧
          array.descriptor = String.ofList (List.replicate n '[') ++ t.descriptor ∧
          RefType.parse (String.ofList (List.replicate n '[') ++ t.descriptor) = .ok array ↔
            n + t.dimensions < 2 ^ 64)) ∧
    (∀ counts indices : List Value, counts.length = n → indices.length = n →
      ∃ e, (counts.foldlM Value.newArray (.reference r) >>= fun array =>
          indices.foldlM Value.loadElement array).run = .ok (some (.reference e)) ∧
        (e = r ↔ r.HasRoom n ∨ r = .object .object)) ∧
    (∀ array index,
      (Instruction.binary (.arrayLoad .ref)).binaryOperation array index
        = .ok (elementByCount array) ∧
      (elementByCount array).isSome) ∧
    ((∀ name, r ≠ .object name) → (∀ element, r ≠ .primitiveArray 0 element) →
      ∀ index, ∃ e, (Instruction.binary (.arrayLoad .ref)).binaryOperation (.reference r) index
        = .ok (some (.reference e)) ∧ (FieldType.ref e).array = r) := by
  refine ⟨?_, ?_, ?_, ?_⟩
  · intro hn
    obtain ⟨array, harray⟩ := t.exists_iterate_inArray hn
    have hdims : array.dimensions = (n + t.dimensions) % 2 ^ 64 := by
      have hall := t.dimensions_iterate_inArray n
      rwa [harray] at hall
    refine ⟨array, harray, ?_, ?_⟩
    · rintro ⟨hexact, -, -⟩
      rw [← hexact, hdims]
      exact Nat.mod_lt _ (Nat.two_pow_pos 64)
    · intro hfits
      rw [Nat.mod_eq_of_lt hfits] at hdims
      have hdescriptor :
          array.descriptor = String.ofList (List.replicate n '[') ++ t.descriptor := by
        have htext := congrArg String.ofList (FieldType.encode_iterate_inArray hfits)
        rwa [harray, String.ofList_append] at htext
      refine ⟨hdims, hdescriptor, ?_⟩
      rw [← hdescriptor]
      exact whole_written RefType.read_encode (RefType.countable_of_dimensions_pos (by omega))
  · rintro counts indices rfl hlength
    refine ⟨_, ?_, RefType.iterate_loaded_array_eq_iff⟩
    rw [Value.foldlM_newArray, pure_bind, Value.foldlM_loadElement, hlength]
    rfl
  · intro array index
    rw [elementByCount_eq]
    exact ⟨rfl, rfl⟩
  · intro hobject hnumbers index
    obtain ⟨e, he⟩ := RefType.exists_element? hobject hnumbers
    refine ⟨e, ?_, RefType.array_of_element? he⟩
    have hload := Value.loadElement_reference r index
    rw [RefType.loaded, he, Option.getD_some] at hload
    exact hload

/-! ## Arrays of numbers -/

/-- Numbers are no references, so of an array of them the innermost dimension stays when the
others have been taken away. -/
theorem row_of_numbers_is_reached_again :
    (∃ r, FieldType.inArray^[3] (.base .int) = .ref r ∧ r.dimensions = 3 ∧
        r.descriptor = "[[[I" ∧ RefType.parse "[[[I" = .ok r) ∧
      ([.int none, .int (some 5)].foldlM Value.newArray (.reference (.primitiveArray 0 .int)) >>=
        fun array => [.int (some 0), .top].foldlM Value.loadElement array).run
          = .ok (some (.reference (.primitiveArray 0 .int))) ∧
      ∃ e, (Instruction.binary (.arrayLoad .ref)).binaryOperation
          (.reference (.primitiveArray 2 .int)) .top = .ok (some (.reference e)) ∧
        (FieldType.ref e).array = .primitiveArray 2 .int := by
  obtain ⟨hbuilt, -⟩ :=
    arrays_are_taken_apart_as_they_were_built (.base .int) (.primitiveArray 0 .int) 3
  obtain ⟨-, hback, -⟩ :=
    arrays_are_taken_apart_as_they_were_built (.base .int) (.primitiveArray 0 .int) 2
  obtain ⟨-, -, -, hload⟩ :=
    arrays_are_taken_apart_as_they_were_built (.base .int) (.primitiveArray 2 .int) 0
  have htext : String.ofList (List.replicate 3 '[') ++ (FieldType.base .int).descriptor
      = "[[[I" := by decide
  obtain ⟨r, hr, hexact⟩ := hbuilt (by decide)
  obtain ⟨hdims, hdescriptor, hparse⟩ := hexact.mpr (by decide)
  rw [htext] at hdescriptor hparse
  obtain ⟨e, hrun, he⟩ := hback [.int none, .int (some 5)] [.int (some 0), .top] rfl rfl
  rw [he.mpr (Or.inl (by unfold RefType.HasRoom; decide))] at hrun
  exact ⟨⟨r, hr, hdims, hdescriptor, hparse⟩, hrun, hload (by simp) (by simp) .top⟩

/-- An array of numbers with the largest count of dimensions. An array of such arrays counts only
one dimension, so it looks like an array of numbers, and what is loaded from it is any object. -/
theorem deepest_array_is_not_reached_again :
    (RefType.primitiveArray (BitVec.allOnes 64) .int).array = .primitiveArray 0 .int ∧
      ([.int none].foldlM Value.newArray
          (.reference (.primitiveArray (BitVec.allOnes 64) .int)) >>=
        fun array => [.int (some 0)].foldlM Value.loadElement array).run
          = .ok (some (.object .object)) ∧
      Value.object .object ≠ .reference (.primitiveArray (BitVec.allOnes 64) .int) := by
  refine ⟨by decide, rfl, ?_⟩
  intro h
  cases h

end SymbolicFrames
