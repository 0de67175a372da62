-- When a literal comes out of an operation. Every instruction that computes has a category for
-- each operand and one for its result, and it is meant to give a literal exactly if its operands
-- are literals of those categories, a division by zero apart. Main statement: all of them do,
-- save for comparisons, which take literals of any category.
import SymbolicFrames.Folding.Arity

namespace SymbolicFrames

/-! ## What an instruction takes and gives -/

def NumberKind.category : NumberKind → Category
  | .int => .int
  | .long => .long
  | .float => .float
  | .double => .double

def WordKind.category : WordKind → Category
  | .int => .int
  | .long => .long

def Conversion.source : Conversion → Category
  | .intToLong | .intToFloat | .intToDouble | .intToByte | .intToChar | .intToShort => .int
  | .longToInt | .longToFloat | .longToDouble => .long
  | .floatToInt | .floatToLong | .floatToDouble => .float
  | .doubleToInt | .doubleToLong | .doubleToFloat => .double

def Conversion.target : Conversion → Category
  | .longToInt | .floatToInt | .doubleToInt | .intToByte | .intToChar | .intToShort => .int
  | .intToLong | .floatToLong | .doubleToLong => .long
  | .intToFloat | .longToFloat | .doubleToFloat => .float
  | .intToDouble | .longToDouble | .floatToDouble => .double

def Comparison.category : Comparison → Category
  | .long => .long
  | .float _ => .float
  | .double _ => .double

structure UnaryTypes where
  operand : Category
  result : Category

structure BinaryTypes where
  left : Category
  right : Category
  result : Category

namespace Instruction

/-- The instructions that compute something from one value. -/
def unaryTypes? : Instruction → Option UnaryTypes
  | .unary (.neg kind) => some ⟨kind.category, kind.category⟩
  | .unary (.convert conversion) => some ⟨conversion.source, conversion.target⟩
  | .increment .. => some ⟨.int, .int⟩
  | _ => none

/-- The instructions that compute something from two values. What a word is shifted by is an
`int`, and so is the result of a comparison. -/
def binaryTypes? : Instruction → Option BinaryTypes
  | .binary (.arith _ kind) => some ⟨kind.category, kind.category, kind.category⟩
  | .binary (.bits _ kind) => some ⟨kind.category, kind.category, kind.category⟩
  | .binary (.shift _ kind) => some ⟨kind.category, .int, kind.category⟩
  | .binary (.compare comparison) => some ⟨comparison.category, comparison.category, .int⟩
  | _ => none

def divides : Instruction → Bool
  | .binary (.arith op _) => op == .div || op == .rem
  | _ => false

def compares : Instruction → Bool
  | .binary (.compare _) => true
  | _ => false

end Instruction

namespace Value

/-- A literal of the category. -/
def IsLiteral (v : Value) (category : Category) : Prop :=
  v.hasLiteral = true ∧ v.category = category

/-- The literals that nothing can be divided by. There is a zero of either sign among the
floating-point numbers. -/
def zeros : List Value :=
  [.int (some 0), .long (some 0),
    .float (some (.zero .single false)), .float (some (.zero .single true)),
    .double (some (.zero .double false)), .double (some (.zero .double true))]

end Value

namespace Instruction

/-- Both operands are literals of the categories that the instruction takes, and it does not
divide by zero. -/
def Folds (i : Instruction) (types : BinaryTypes) (l r : Value) : Prop :=
  l.IsLiteral types.left ∧ r.IsLiteral types.right ∧ ¬ (i.divides = true ∧ r ∈ Value.zeros)

/-- Literals are compared that are not both of the categories that the instruction takes. -/
def ComparesAmiss (i : Instruction) (types : BinaryTypes) (l r : Value) : Prop :=
  i.compares = true ∧ (l.hasLiteral = true ∧ r.hasLiteral = true) ∧
    ¬ (l.IsLiteral types.left ∧ r.IsLiteral types.right)

end Instruction

/-! ## Literals -/

/-- Nothing but a sign. -/
theorem Binary.isZero_iff {f : Format} (x : Binary f) :
    x.isZero = true ↔ x = .zero f false ∨ x = .zero f true := by
  obtain ⟨bits⟩ := x
  have hlt : bits.toNat < 2 ^ f.magnitudeBits * 2 := bits.isLt
  have hsign : 2 ^ f.magnitudeBits < 2 ^ f.width :=
    Nat.pow_lt_pow_right (by decide) (Nat.lt_succ_self _)
  have hbits : bits.toNat % 2 ^ f.magnitudeBits = 0 ↔
      bits.toNat = 0 ∨ bits.toNat = 2 ^ f.magnitudeBits := by
    rcases Nat.lt_or_ge bits.toNat (2 ^ f.magnitudeBits) with hsmall | hlarge
    · rw [Nat.mod_eq_of_lt hsmall]
      omega
    · rw [Nat.mod_eq_sub_mod hlarge, Nat.mod_eq_of_lt (by omega)]
      omega
  simp only [isZero, magnitude, zero, ofMagnitude, Binary.mk.injEq, beq_iff_eq, Nat.pow_eq]
  rw [← BitVec.toNat_inj, ← BitVec.toNat_inj, BitVec.toNat_ofNat, BitVec.toNat_ofNat, hbits]
  simp [Nat.mod_eq_of_lt hsign]

/-- How literals of one category are read off values, and which of them are zeros. -/
structure LiteralKind (α : Type) where
  category : Category
  read : Value → Option α
  IsZero : α → Prop
  isSome_read_iff : ∀ v, (read v).isSome = true ↔ v.IsLiteral category
  mem_zeros_iff : ∀ v a, read v = some a → (v ∈ Value.zeros ↔ IsZero a)

namespace LiteralKind

def ints : LiteralKind (BitVec 32) where
  category := .int
  read := Value.int?
  IsZero := (· = 0)
  isSome_read_iff := by
    intro v
    cases v <;> simp [Value.int?, Value.IsLiteral, Value.hasLiteral, Value.category]
  mem_zeros_iff := by
    intro v a h
    cases v <;> simp_all [Value.int?, Value.zeros]

def longs : LiteralKind (BitVec 64) where
  category := .long
  read := Value.long?
  IsZero := (· = 0)
  isSome_read_iff := by
    intro v
    cases v <;> simp [Value.long?, Value.IsLiteral, Value.hasLiteral, Value.category]
  mem_zeros_iff := by
    intro v a h
    cases v <;> simp_all [Value.long?, Value.zeros]

def floats : LiteralKind Binary32 where
  category := .float
  read := Value.float?
  IsZero := (·.isZero = true)
  isSome_read_iff := by
    intro v
    cases v <;> simp [Value.float?, Value.IsLiteral, Value.hasLiteral, Value.category]
  mem_zeros_iff := by
    intro v a h
    cases v <;> simp_all [Value.float?, Value.zeros, Binary.isZero_iff]

def doubles : LiteralKind Binary64 where
  category := .double
  read := Value.double?
  IsZero := (·.isZero = true)
  isSome_read_iff := by
    intro v
    cases v <;> simp [Value.double?, Value.IsLiteral, Value.hasLiteral, Value.category]
  mem_zeros_iff := by
    intro v a h
    cases v <;> simp_all [Value.double?, Value.zeros, Binary.isZero_iff]

variable {α β γ : Type}

theorem isSome_map_iff (kind : LiteralKind α) (f : α → γ) (v : Value) :
    ((kind.read v).map f).isSome = true ↔ v.IsLiteral kind.category := by
  rw [Option.isSome_map, kind.isSome_read_iff]

/-- A fold has a result if both literals are there and the function is defined on them. What
it may not be defined on is a division by zero. -/
theorem isSome_foldTwo_iff (left : LiteralKind α) (right : LiteralKind β) {f : α → β → Option γ}
    {divides : Prop} (hf : ∀ a b, (f a b).isSome = true ↔ ¬ (divides ∧ right.IsZero b))
    (l r : Value) :
    (foldTwo f (left.read l) (right.read r)).isSome = true ↔
      l.IsLiteral left.category ∧ r.IsLiteral right.category ∧
        ¬ (divides ∧ r ∈ Value.zeros) := by
  rw [← left.isSome_read_iff, ← right.isSome_read_iff]
  rcases left.read l with _ | a
  · simp [foldTwo]
  · rcases hr : right.read r with _ | b
    · simp [foldTwo]
    · rw [right.mem_zeros_iff r b hr]
      simp [foldTwo, hf]

end LiteralKind

/-! ## One operand -/

theorem NumberKind.hasLiteral_negate_iff (kind : NumberKind) (v : Value) :
    (kind.negate v).hasLiteral = true ↔ v.IsLiteral kind.category := by
  cases kind with
  | int => exact LiteralKind.ints.isSome_map_iff _ v
  | long => exact LiteralKind.longs.isSome_map_iff _ v
  | float => exact LiteralKind.floats.isSome_map_iff _ v
  | double => exact LiteralKind.doubles.isSome_map_iff _ v

theorem Conversion.hasLiteral_apply_iff (conversion : Conversion) (v : Value) :
    (conversion.apply v).hasLiteral = true ↔ v.IsLiteral conversion.source := by
  cases conversion with
  | intToLong | intToFloat | intToDouble | intToByte | intToChar | intToShort =>
    exact LiteralKind.ints.isSome_map_iff _ v
  | longToInt | longToFloat | longToDouble => exact LiteralKind.longs.isSome_map_iff _ v
  | floatToInt | floatToLong | floatToDouble => exact LiteralKind.floats.isSome_map_iff _ v
  | doubleToInt | doubleToLong | doubleToFloat => exact LiteralKind.doubles.isSome_map_iff _ v

/-! ## Two operands -/

theorem ArithOp.isSome_onWords_iff {w : Nat} (op : ArithOp) (l r : BitVec w) :
    (op.onWords l r).isSome = true ↔ ¬ ((op == .div || op == .rem) = true ∧ r = 0) := by
  cases op <;> by_cases hzero : r = 0 <;> simp [onWords, hzero]

theorem ArithOp.isSome_onBinaries_iff {f : Format} (op : ArithOp) (x y : Binary f) :
    (op.onBinaries x y).isSome = true ↔
      ¬ ((op == .div || op == .rem) = true ∧ y.isZero = true) := by
  cases op <;> by_cases hzero : y.isZero = true <;> simp [onBinaries, hzero]

theorem ArithOp.hasLiteral_apply_iff (op : ArithOp) (kind : NumberKind) (l r : Value) :
    (op.apply kind l r).hasLiteral = true ↔
      l.IsLiteral kind.category ∧ r.IsLiteral kind.category ∧
        ¬ ((op == .div || op == .rem) = true ∧ r ∈ Value.zeros) := by
  cases kind with
  | int => exact LiteralKind.isSome_foldTwo_iff .ints .ints op.isSome_onWords_iff l r
  | long => exact LiteralKind.isSome_foldTwo_iff .longs .longs op.isSome_onWords_iff l r
  | float => exact LiteralKind.isSome_foldTwo_iff .floats .floats op.isSome_onBinaries_iff l r
  | double =>
    exact LiteralKind.isSome_foldTwo_iff .doubles .doubles op.isSome_onBinaries_iff l r

theorem BitOp.hasLiteral_apply_iff (op : BitOp) (kind : WordKind) (l r : Value) :
    (op.apply kind l r).hasLiteral = true ↔
      l.IsLiteral kind.category ∧ r.IsLiteral kind.category ∧
        ¬ (false = true ∧ r ∈ Value.zeros) := by
  cases kind with
  | int => exact LiteralKind.isSome_foldTwo_iff .ints .ints (by simp) l r
  | long => exact LiteralKind.isSome_foldTwo_iff .longs .longs (by simp) l r

theorem ShiftOp.hasLiteral_apply_iff (op : ShiftOp) (kind : WordKind) (l r : Value) :
    (op.apply kind l r).hasLiteral = true ↔
      l.IsLiteral kind.category ∧ r.IsLiteral .int ∧ ¬ (false = true ∧ r ∈ Value.zeros) := by
  cases kind with
  | int => exact LiteralKind.isSome_foldTwo_iff .ints .ints (by simp) l r
  | long => exact LiteralKind.isSome_foldTwo_iff .longs .ints (by simp) l r

theorem hasLiteral_compareLiterals_iff (l r : Value) :
    (compareLiterals l r).hasLiteral = true ↔ l.hasLiteral = true ∧ r.hasLiteral = true := by
  unfold compareLiterals
  split
  · rename_i hboth
    simpa [Value.hasLiteral] using hboth
  · rename_i hnot
    simpa [Value.hasLiteral] using hnot

theorem category_compareLiterals (l r : Value) : (compareLiterals l r).category = .int := by
  unfold compareLiterals
  split
  · rfl
  · rfl

/-! ## Instructions -/

namespace Instruction

variable {i : Instruction}

theorem unaryOperation_folds {types : UnaryTypes} (h : i.unaryTypes? = some types) (v : Value) :
    ∃ out, i.unaryOperation v = .ok (some out) ∧ out.category = types.result ∧
      (out.hasLiteral = true ↔ v.IsLiteral types.operand) := by
  cases i with
  | unary op =>
    cases op with
    | neg kind =>
      cases h
      exact ⟨_, rfl, by cases kind <;> rfl, kind.hasLiteral_negate_iff v⟩
    | convert conversion =>
      cases h
      exact ⟨_, rfl, by cases conversion <;> rfl, conversion.hasLiteral_apply_iff v⟩
    | _ => cases h
  | increment slot amount =>
    cases h
    exact ⟨_, rfl, rfl, LiteralKind.ints.isSome_map_iff _ v⟩
  | _ => cases h

theorem Folds.not_comparesAmiss {types : BinaryTypes} {l r : Value} (h : i.Folds types l r) :
    ¬ i.ComparesAmiss types l r :=
  fun hamiss => hamiss.2.2 ⟨h.1, h.2.1⟩

/-- Comparisons ask less of their operands than the other instructions do. -/
theorem binaryOperation_folds {types : BinaryTypes} (h : i.binaryTypes? = some types)
    (l r : Value) :
    ∃ out, i.binaryOperation l r = .ok (some out) ∧ out.category = types.result ∧
      (out.hasLiteral = true ↔ i.Folds types l r ∨ i.ComparesAmiss types l r) := by
  -- Only a comparison can compare amiss.
  have hfolds : i.compares = false → (i.Folds types l r ↔
      i.Folds types l r ∨ i.ComparesAmiss types l r) := by
    intro hno
    simp [ComparesAmiss, hno]
  cases i with
  | binary op =>
    cases op with
    | arith op kind =>
      cases h
      exact ⟨_, rfl, by cases kind <;> rfl, (op.hasLiteral_apply_iff kind l r).trans (hfolds rfl)⟩
    | bits op kind =>
      cases h
      exact ⟨_, rfl, by cases kind <;> rfl, (op.hasLiteral_apply_iff kind l r).trans (hfolds rfl)⟩
    | shift op kind =>
      cases h
      exact ⟨_, rfl, by cases kind <;> rfl, (op.hasLiteral_apply_iff kind l r).trans (hfolds rfl)⟩
    | compare comparison =>
      cases h
      refine ⟨_, rfl, category_compareLiterals l r, ?_⟩
      rw [hasLiteral_compareLiterals_iff]
      constructor
      · rintro ⟨hl, hr⟩
        by_cases hexpected : l.IsLiteral comparison.category ∧ r.IsLiteral comparison.category
        · exact Or.inl ⟨hexpected.1, hexpected.2, fun hdivides => Bool.noConfusion hdivides.1⟩
        · exact Or.inr ⟨rfl, ⟨hl, hr⟩, hexpected⟩
      · rintro (hmeant | hamiss)
        · exact ⟨hmeant.1.1, hmeant.2.1.1⟩
        · exact hamiss.2.1
    | _ => cases h
  | _ => cases h

end Instruction

/-- Literals come out where they are expected, unless something is compared amiss. Whatever the
operands, the category of the result is that of the instruction. On one operand the result is a
literal exactly if the operand is one of the category taken. On two it is so exactly if both are
and no division by zero is made, and this fails only for comparisons of literals that are not
both of the category compared: these are told apart or found equal like any others. -/
theorem literals_fold_as_expected_unless_compared_amiss (i : Instruction) :
    (∀ types, i.unaryTypes? = some types → ∀ v,
      ∃ out, i.unaryOperation v = .ok (some out) ∧ out.category = types.result ∧
        (out.hasLiteral = true ↔ v.IsLiteral types.operand)) ∧
    ∀ types, i.binaryTypes? = some types → ∀ l r,
      ∃ out, i.binaryOperation l r = .ok (some out) ∧ out.category = types.result ∧
        ((out.hasLiteral = true ↔ i.Folds types l r) ↔ ¬ i.ComparesAmiss types l r) := by
  refine ⟨fun types h => Instruction.unaryOperation_folds h, ?_⟩
  intro types h l r
  obtain ⟨out, hout, hcategory, hliteral⟩ := Instruction.binaryOperation_folds h l r
  refine ⟨out, hout, hcategory, ?_⟩
  rw [hliteral]
  constructor
  · intro hmeant hamiss
    exact (hmeant.mp (Or.inr hamiss)).not_comparesAmiss hamiss
  · intro hnever
    exact or_iff_left hnever

/-- The count of a shift is an int even where a long is shifted, and a minus zero is zero enough
not to be divided by. -/
theorem long_is_shifted_by_an_int :
    (∃ out, (Instruction.binary (.shift .left .long)).binaryOperation (.long (some 1))
        (.int (some 65)) = .ok (some out) ∧ out.hasLiteral = true) ∧
      (∃ out, (Instruction.binary (.arith .div .float)).binaryOperation
        (.float (some (.ofInt .single 1))) (.float (some (.zero .single true))) = .ok (some out) ∧
        out.category = .float ∧ ¬ out.hasLiteral = true) ∧
      ∃ out, (Instruction.unary (.neg .float)).unaryOperation (.int (some 1)) = .ok (some out) ∧
        out.category = .float ∧ ¬ out.hasLiteral = true := by
  refine ⟨?_, ?_, ?_⟩
  · obtain ⟨out, hout, -, hfolds⟩ :=
      (literals_fold_as_expected_unless_compared_amiss (.binary (.shift .left .long))).2 _ rfl
        (.long (some 1)) (.int (some 65))
    have hmeant := hfolds.mpr fun hamiss => Bool.noConfusion hamiss.1
    refine ⟨out, hout, hmeant.mpr ⟨⟨rfl, rfl⟩, ⟨rfl, rfl⟩, ?_⟩⟩
    exact fun hdivides => Bool.noConfusion hdivides.1
  · obtain ⟨out, hout, hcategory, hfolds⟩ :=
      (literals_fold_as_expected_unless_compared_amiss (.binary (.arith .div .float))).2 _ rfl
        (.float (some (.ofInt .single 1))) (.float (some (.zero .single true)))
    have hmeant := hfolds.mpr fun hamiss => Bool.noConfusion hamiss.1
    refine ⟨out, hout, hcategory, fun hliteral => ?_⟩
    exact (hmeant.mp hliteral).2.2 ⟨rfl, by simp [Value.zeros]⟩
  · obtain ⟨out, hout, hcategory, hfolds⟩ :=
      (literals_fold_as_expected_unless_compared_amiss (.unary (.neg .float))).1 _ rfl
        (.int (some 1))
    refine ⟨out, hout, hcategory, fun hliteral => ?_⟩
    cases (hfolds.mp hliteral).2

/-! ## A long and an int -/

/-- A long compared with an int of the same number: both are literals, and they are found to be
different, though nothing else is computed from an int in the place of a long. -/
theorem long_and_int_are_compared_amiss :
    (Instruction.binary (.compare .long)).binaryTypes? = some ⟨.long, .long, .int⟩ ∧
      (Instruction.binary (.compare .long)).binaryOperation (.long (some 3)) (.int (some 3))
        = .ok (some (.int (some 0))) ∧
      ¬ (Instruction.binary (.compare .long)).Folds ⟨.long, .long, .int⟩ (.long (some 3))
        (.int (some 3)) ∧
      (Instruction.binary (.arith .sub .long)).binaryOperation (.long (some 3)) (.int (some 3))
        = .ok (some (.long none)) := by
  refine ⟨rfl, rfl, ?_, rfl⟩
  rintro ⟨-, ⟨-, hcategory⟩, -⟩
  cases hcategory

end SymbolicFrames
