-- How much values say. A value refines another if all that the other says holds of it: it may
-- carry a literal where the other has none, or be anything where the other is left of values
-- that disagree. Operations on values respect this, though joins go by agreement alone.
import SymbolicFrames.Proofs.Execution

namespace SymbolicFrames

/-- Any number of the category. -/
def Category.unknown? : Category → Option Value
  | .int => some (.int none)
  | .long => some (.long none)
  | .float => some (.float none)
  | .double => some (.double none)
  | .reference | .returnAddress | .uninitialized | .top => none

namespace Value

/-- All that the second value says holds of the first, which takes as many slots. -/
def Refines (v w : Value) : Prop :=
  v = w ∨ v.width = w.width ∧
    (v.category.unknown? = some w ∨ w = .top ∨ w = .wideTop ∨
      (w = .object .object ∧ v.category = .reference))

theorem refines_self (v : Value) : v.Refines v := Or.inl rfl

theorem Refines.width_eq {v w : Value} (h : v.Refines w) : v.width = w.width := by
  rcases h with rfl | h
  · rfl
  · exact h.1

theorem int_refines (literal : Option (BitVec 32)) : (int literal).Refines (int none) :=
  Or.inr ⟨rfl, Or.inl rfl⟩

theorem long_refines (literal : Option (BitVec 64)) : (long literal).Refines (long none) :=
  Or.inr ⟨rfl, Or.inl rfl⟩

theorem float_refines (literal : Option Binary32) : (float literal).Refines (float none) :=
  Or.inr ⟨rfl, Or.inl rfl⟩

theorem double_refines (literal : Option Binary64) : (double literal).Refines (double none) :=
  Or.inr ⟨rfl, Or.inl rfl⟩

theorem refines_top {v : Value} (h : v.width = 1) : v.Refines .top :=
  Or.inr ⟨h, Or.inr (Or.inl rfl)⟩

theorem refines_wideTop {v : Value} (h : v.width = 2) : v.Refines .wideTop :=
  Or.inr ⟨h, Or.inr (Or.inr (Or.inl rfl))⟩

/-! ## Folding -/

/-- What says less than another value carries no literal. -/
theorem Refines.eq_or_no_literal {v w : Value} (h : v.Refines w) :
    v = w ∨ w.hasLiteral = false := by
  rcases h with rfl | ⟨-, hunknown | rfl | rfl | ⟨rfl, -⟩⟩
  · exact Or.inl rfl
  · right
    cases v <;> simp [category, Category.unknown?] at hunknown <;> rw [← hunknown] <;> rfl
  · exact Or.inr rfl
  · exact Or.inr rfl
  · exact Or.inr rfl

theorem literals_eq_none {v : Value} (h : v.hasLiteral = false) :
    v.int? = none ∧ v.long? = none ∧ v.float? = none ∧ v.double? = none := by
  cases v <;> simp_all [hasLiteral, int?, long?, float?, double?]

/-- An operation on one literal gives any value of its category where there is none. -/
theorem map_refines {α γ : Type} {value : Option γ → Value}
    (hvalue : ∀ literal, (value literal).Refines (value none)) (f : α → γ) {o o' : Option α}
    (h : o' = none) : (value (o.map f)).Refines (value (o'.map f)) := by
  rw [h, Option.map_none]
  exact hvalue _

/-- An operation on two literals gives any value of its category where either is missing. -/
theorem fold_refines {α β γ : Type} {value : Option γ → Value}
    (hvalue : ∀ literal, (value literal).Refines (value none)) (f : α → β → Option γ)
    {l l' : Option α} {r r' : Option β} (h : l' = none ∨ r' = none) :
    (value (foldTwo f l r)).Refines (value (foldTwo f l' r')) := by
  have hnone : foldTwo f l' r' = none := by
    rcases h with rfl | rfl
    · rfl
    · cases l' <;> rfl
  rw [hnone]
  exact hvalue _

theorem increment_refines {v w : Value} (amount : BitVec 16) (h : v = w ∨ w.hasLiteral = false) :
    (v.increment amount).Refines (w.increment amount) := by
  rcases h with rfl | hw
  · exact refines_self _
  · exact map_refines int_refines _ (literals_eq_none hw).1

theorem negate_refines {v w : Value} (kind : NumberKind) (h : v.Refines w) :
    (kind.negate v).Refines (kind.negate w) := by
  rcases h.eq_or_no_literal with rfl | hw
  · exact refines_self _
  · obtain ⟨hint, hlong, hfloat, hdouble⟩ := literals_eq_none hw
    cases kind with
    | int => exact map_refines int_refines _ hint
    | long => exact map_refines long_refines _ hlong
    | float => exact map_refines float_refines _ hfloat
    | double => exact map_refines double_refines _ hdouble

theorem convert_refines {v w : Value} (conversion : Conversion) (h : v.Refines w) :
    (conversion.apply v).Refines (conversion.apply w) := by
  rcases h.eq_or_no_literal with rfl | hw
  · exact refines_self _
  · obtain ⟨hint, hlong, hfloat, hdouble⟩ := literals_eq_none hw
    cases conversion with
    | longToInt => exact map_refines int_refines _ hlong
    | floatToInt => exact map_refines int_refines _ hfloat
    | doubleToInt => exact map_refines int_refines _ hdouble
    | intToByte | intToChar | intToShort => exact map_refines int_refines _ hint
    | intToLong => exact map_refines long_refines _ hint
    | floatToLong => exact map_refines long_refines _ hfloat
    | doubleToLong => exact map_refines long_refines _ hdouble
    | intToFloat => exact map_refines float_refines _ hint
    | longToFloat => exact map_refines float_refines _ hlong
    | doubleToFloat => exact map_refines float_refines _ hdouble
    | intToDouble => exact map_refines double_refines _ hint
    | longToDouble => exact map_refines double_refines _ hlong
    | floatToDouble => exact map_refines double_refines _ hfloat

theorem unary_refines {v w : Value} (op : UnaryOp) (h : v.Refines w) :
    Agree (Option.Rel Refines) (op.result v) (op.result w) := by
  have hsame : ∀ x : Except Fault (Option Value), Agree (Option.Rel Refines) x x := by
    apply Agree.refl
    rintro (_ | u)
    · exact .none
    · exact .some (refines_self u)
  cases op with
  | neg kind => exact .ok (.some (negate_refines kind h))
  | convert conversion => exact .ok (.some (convert_refines conversion h))
  | _ => exact hsame _

theorem arrayElement_refines_object (v : Value) : (arrayElement v).Refines (.object .object) := by
  have : ∀ type, (reference type).Refines (.object .object) := fun type =>
    Or.inr ⟨rfl, Or.inr (Or.inr (Or.inr ⟨rfl, rfl⟩))⟩
  unfold arrayElement
  split
  · split
    · exact this _
    · exact this _
  · exact this _

theorem arrayElement_refines {v w : Value} (h : v.Refines w) :
    (arrayElement v).Refines (arrayElement w) := by
  rcases h with rfl | ⟨-, hunknown | rfl | rfl | ⟨rfl, -⟩⟩
  · exact refines_self _
  · have hw : arrayElement w = .object .object := by
      cases v <;> simp [category, Category.unknown?] at hunknown <;> rw [← hunknown] <;> rfl
    rw [hw]
    exact arrayElement_refines_object v
  · exact arrayElement_refines_object v
  · exact arrayElement_refines_object v
  · exact arrayElement_refines_object v

theorem compareLiterals_refines {l l' r r' : Value}
    (h : l'.hasLiteral = false ∨ r'.hasLiteral = false) :
    (compareLiterals l r).Refines (compareLiterals l' r') := by
  have hnone : compareLiterals l' r' = .int none := by
    unfold compareLiterals
    rcases h with h | h <;> simp [h]
  rw [hnone]
  unfold compareLiterals
  split <;> exact int_refines _

theorem arith_refines {l l' r r' : Value} (op : ArithOp) (kind : NumberKind)
    (h : l'.hasLiteral = false ∨ r'.hasLiteral = false) :
    (op.apply kind l r).Refines (op.apply kind l' r') := by
  have hliterals := h.imp literals_eq_none literals_eq_none
  cases kind with
  | int => exact fold_refines int_refines _ (hliterals.imp (·.1) (·.1))
  | long => exact fold_refines long_refines _ (hliterals.imp (·.2.1) (·.2.1))
  | float => exact fold_refines float_refines _ (hliterals.imp (·.2.2.1) (·.2.2.1))
  | double => exact fold_refines double_refines _ (hliterals.imp (·.2.2.2) (·.2.2.2))

theorem bits_refines {l l' r r' : Value} (op : BitOp) (kind : WordKind)
    (h : l'.hasLiteral = false ∨ r'.hasLiteral = false) :
    (op.apply kind l r).Refines (op.apply kind l' r') := by
  have hliterals := h.imp literals_eq_none literals_eq_none
  cases kind with
  | int => exact fold_refines int_refines _ (hliterals.imp (·.1) (·.1))
  | long => exact fold_refines long_refines _ (hliterals.imp (·.2.1) (·.2.1))

theorem shift_refines {l l' r r' : Value} (op : ShiftOp) (kind : WordKind)
    (h : l'.hasLiteral = false ∨ r'.hasLiteral = false) :
    (op.apply kind l r).Refines (op.apply kind l' r') := by
  have hliterals := h.imp literals_eq_none literals_eq_none
  cases kind with
  | int => exact fold_refines int_refines _ (hliterals.imp (·.1) (·.1))
  | long => exact fold_refines long_refines _ (hliterals.imp (·.2.1) (·.1))

theorem load_refines {v w : Value} (kind : ElementKind) (h : v.Refines w) :
    (kind.load v).Refines (kind.load w) := by
  cases kind with
  | ref => exact arrayElement_refines h
  | _ => exact refines_self _

theorem binary_refines {l l' r r' : Value} (op : BinaryOp) (hl : l.Refines l')
    (hr : r.Refines r') : Option.Rel Refines (op.result l r) (op.result l' r') := by
  have hliterals : l = l' ∧ r = r' ∨ l'.hasLiteral = false ∨ r'.hasLiteral = false := by
    rcases hl.eq_or_no_literal with hl | hl
    · rcases hr.eq_or_no_literal with hr | hr
      · exact Or.inl ⟨hl, hr⟩
      · exact Or.inr (Or.inr hr)
    · exact Or.inr (Or.inl hl)
  rcases hliterals with ⟨rfl, rfl⟩ | hliterals
  · cases op.result l r with
    | none => exact .none
    | some v => exact .some (refines_self v)
  · cases op with
    | arith op kind => exact .some (arith_refines op kind hliterals)
    | bits op kind => exact .some (bits_refines op kind hliterals)
    | shift op kind => exact .some (shift_refines op kind hliterals)
    | compare => exact .some (compareLiterals_refines hliterals)
    | arrayLoad kind => exact .some (load_refines kind hl)
    | ifInts | ifRefs | putField => exact .none

/-! ## Locals -/

theorem Refines.overwritten {v w : Value} (h : v.Refines w) :
    (if v.width = 2 then .uninitialized else v).Refines
      (if w.width = 2 then .uninitialized else w) := by
  rw [h.width_eq]
  split
  · exact refines_self _
  · exact h

/-- What a local says holds of another. Where locals disagree nothing is left, not even
how many slots they take. -/
def InLocal (v w : Value) : Prop := v.Refines w ∨ w = .top

theorem InLocal.no_literal {v w : Value} (h : v.InLocal w) : v = w ∨ w.hasLiteral = false := by
  rcases h with h | rfl
  · exact h.eq_or_no_literal
  · exact Or.inr rfl

theorem InLocal.refines {v w : Value} (h : v.InLocal w) (hwidth : v.width = w.width) :
    v.Refines w := by
  rcases h with h | rfl
  · exact h
  · exact refines_top hwidth

theorem InLocal.overwritten {v w : Value} (h : v.InLocal w) :
    (if v.width = 2 then .uninitialized else v).InLocal
      (if w.width = 2 then .uninitialized else w) := by
  rcases h with h | rfl
  · exact Or.inl h.overwritten
  · exact Or.inr rfl

end Value

/-- The similarity of frames of which the second says less. -/
def covering : Similarity where
  operand := Value.Refines
  inLocal := Value.InLocal
  operand_refl := Value.refines_self
  inLocal_of_operand := Or.inl
  width_eq := Value.Refines.width_eq
  overwritten := Value.InLocal.overwritten
  increment := fun amount h => Value.increment_refines amount h.no_literal
  unary := Value.unary_refines
  binary := Value.binary_refines

end SymbolicFrames
