-- Folding of integers. A word stands for a whole number, and what an operation folds two words
-- to is compared with what exact arithmetic on the whole numbers gives. Main statement: folding
-- is exact arithmetic with the result brought back into the range of the words, a division by
-- zero apart, which is left to the running program.
import Mathlib.Data.Int.Bitwise
import SymbolicFrames.Folding.Arity

namespace SymbolicFrames

/-! ## Bringing a number back into a range -/

/-- The number from `low` on, within so many, that differs from `n` by a multiple of that
many. -/
def reduced (low : Int) (size : Nat) (n : Int) : Int := low + (n - low) % size

/-- What is left of a number in a word with a sign. -/
def wrapped (bits : Nat) (n : Int) : Int := reduced (-2 ^ (bits - 1)) (2 ^ bits) n

theorem eq_reduced_iff {low n m : Int} {size : Nat} (hsize : 0 < size) :
    m = reduced low size n ↔ low ≤ m ∧ m < low + size ∧ (size : Int) ∣ m - n := by
  have hpos : (0 : Int) < size := Int.natCast_pos.mpr hsize
  unfold reduced
  constructor
  · rintro rfl
    have hnonneg := Int.emod_nonneg (n - low) (Int.ne_of_gt hpos)
    have hlt := Int.emod_lt_of_pos (n - low) hpos
    refine ⟨by omega, by omega, ?_⟩
    have hmultiple : low + (n - low) % size - n = -(size * ((n - low) / size)) := by
      have := Int.mul_ediv_add_emod (n - low) size
      omega
    rw [hmultiple]
    exact Int.dvd_neg.mpr (Int.dvd_mul_right _ _)
  · rintro ⟨hlow, hhigh, hdvd⟩
    have hsame : (n - low) % size = (m - low) % size := by
      apply Int.emod_eq_emod_iff_emod_sub_eq_zero.mpr
      apply Int.emod_eq_zero_of_dvd
      rw [show n - low - (m - low) = -(m - n) by omega]
      exact Int.dvd_neg.mpr hdvd
    rw [hsame, Int.emod_eq_of_lt (by omega) (by omega)]
    omega

theorem bmod_eq_wrapped {bits : Nat} (hbits : 0 < bits) (n : Int) :
    n.bmod (2 ^ bits) = wrapped bits n := by
  have hhalf : ((2 ^ bits : Nat) : Int) = 2 * 2 ^ (bits - 1) := by
    obtain ⟨k, rfl⟩ := Nat.exists_eq_add_of_lt hbits
    simp [Int.pow_succ, Int.mul_comm]
  have hsize : 0 < 2 ^ bits := Nat.two_pow_pos bits
  have hlow := Int.le_bmod (x := n) hsize
  have hhigh := Int.bmod_lt (x := n) hsize
  apply (eq_reduced_iff hsize).mpr
  exact ⟨by omega, by omega, Int.dvd_bmod_sub_self⟩

/-! ## Words of either width -/

namespace WordKind

def bits : WordKind → Nat
  | .int => 32
  | .long => 64

def number : WordKind → NumberKind
  | .int => .int
  | .long => .long

def value : (kind : WordKind) → Option (BitVec kind.bits) → Value
  | .int, literal => .int literal
  | .long, literal => .long literal

theorem bits_pos (kind : WordKind) : 0 < kind.bits := by
  cases kind <;> decide

/-- The result is known, and it is this number. -/
def Gives (kind : WordKind) (result : Except Fault (Option Value)) (n : Int) : Prop :=
  ∃ word : BitVec kind.bits, result = .ok (some (kind.value (some word))) ∧ word.toInt = n

/-- Number of places that a word is shifted by. Negative counts and those past the width go
round. -/
def places (kind : WordKind) (count : BitVec 32) : Nat := (count.toInt % kind.bits).toNat

/-! ### Instructions on known words -/

def arith (kind : WordKind) (op : ArithOp) (l r : BitVec kind.bits) :
    Except Fault (Option Value) :=
  (Instruction.binary (.arith op kind.number)).binaryOperation (kind.value (some l))
    (kind.value (some r))

def bitwise (kind : WordKind) (op : BitOp) (l r : BitVec kind.bits) :
    Except Fault (Option Value) :=
  (Instruction.binary (.bits op kind)).binaryOperation (kind.value (some l))
    (kind.value (some r))

def shift (kind : WordKind) (op : ShiftOp) (word : BitVec kind.bits) (count : BitVec 32) :
    Except Fault (Option Value) :=
  (Instruction.binary (.shift op kind)).binaryOperation (kind.value (some word))
    (.int (some count))

def negation (kind : WordKind) (word : BitVec kind.bits) : Except Fault (Option Value) :=
  (Instruction.unary (.neg kind.number)).unaryOperation (kind.value (some word))

variable (kind : WordKind) (l r : BitVec kind.bits)

theorem arith_eq (op : ArithOp) :
    kind.arith op l r = .ok (some (kind.value (op.onWords l r))) := by
  cases kind <;> rfl

theorem bitwise_eq (op : BitOp) :
    kind.bitwise op l r = .ok (some (kind.value (some (op.onWords l r)))) := by
  cases kind <;> rfl

theorem shift_eq (op : ShiftOp) (count : BitVec 32) :
    kind.shift op l count = .ok (some (kind.value (some (op.onWords l count)))) := by
  cases kind <;> rfl

theorem negation_eq : kind.negation l = .ok (some (kind.value (some (-l)))) := by
  cases kind <;> rfl

end WordKind

/-! ## Arithmetic -/

namespace WordKind

/-- Sums, differences, products and opposites are exact up to what does not fit, quotients go
toward zero, and remainders are what is then left. Nothing is known of a division by zero. -/
structure ExactArithmetic (kind : WordKind) (l r : BitVec kind.bits) : Prop where
  add : kind.Gives (kind.arith .add l r) (wrapped kind.bits (l.toInt + r.toInt))
  sub : kind.Gives (kind.arith .sub l r) (wrapped kind.bits (l.toInt - r.toInt))
  mul : kind.Gives (kind.arith .mul l r) (wrapped kind.bits (l.toInt * r.toInt))
  neg : kind.Gives (kind.negation l) (wrapped kind.bits (-l.toInt))
  div : r ≠ 0 → kind.Gives (kind.arith .div l r) (wrapped kind.bits (l.toInt.tdiv r.toInt))
  rem : r ≠ 0 →
    kind.Gives (kind.arith .rem l r) (l.toInt - r.toInt * l.toInt.tdiv r.toInt)
  div_zero : kind.arith .div l 0 = .ok (some (kind.value none))
  rem_zero : kind.arith .rem l 0 = .ok (some (kind.value none))

variable (kind : WordKind) (l r : BitVec kind.bits)

theorem exactArithmetic : kind.ExactArithmetic l r where
  add := by
    refine ⟨l + r, kind.arith_eq l r .add, ?_⟩
    rw [BitVec.toInt_add, bmod_eq_wrapped kind.bits_pos]
  sub := by
    refine ⟨l - r, kind.arith_eq l r .sub, ?_⟩
    rw [BitVec.toInt_sub, bmod_eq_wrapped kind.bits_pos]
  mul := by
    refine ⟨l * r, kind.arith_eq l r .mul, ?_⟩
    rw [BitVec.toInt_mul, bmod_eq_wrapped kind.bits_pos]
  neg := by
    refine ⟨-l, kind.negation_eq l, ?_⟩
    rw [BitVec.toInt_neg, bmod_eq_wrapped kind.bits_pos]
  div := by
    intro hr
    refine ⟨l.sdiv r, ?_, ?_⟩
    · rw [arith_eq, ArithOp.onWords, if_neg hr]
    · rw [BitVec.toInt_sdiv, bmod_eq_wrapped kind.bits_pos]
  rem := by
    intro hr
    refine ⟨l.srem r, ?_, ?_⟩
    · rw [arith_eq, ArithOp.onWords, if_neg hr]
    · rw [BitVec.toInt_srem, Int.tmod_def]
  div_zero := by rw [arith_eq, ArithOp.onWords, if_pos rfl]
  rem_zero := by rw [arith_eq, ArithOp.onWords, if_pos rfl]

/-- A quotient and a remainder as they belong together. -/
structure Divides (kind : WordKind) (l r : BitVec kind.bits) (quotient remainder : Int) :
    Prop where
  quotient_eq : kind.Gives (kind.arith .div l r) quotient
  remainder_eq : kind.Gives (kind.arith .rem l r) remainder
  sign_eq : remainder = 0 ∨ remainder.sign = l.toInt.sign
  natAbs_lt : remainder.natAbs < r.toInt.natAbs
  whole : wrapped kind.bits (quotient * r.toInt + remainder) = l.toInt

theorem exists_divides (hr : r ≠ 0) :
    ∃ quotient remainder, kind.Divides l r quotient remainder := by
  have hexact := kind.exactArithmetic l r
  refine ⟨_, _, hexact.div hr, hexact.rem hr, ?_, ?_, ?_⟩
  · rw [← Int.tmod_def]
    by_cases hdvd : r.toInt ∣ l.toInt
    · exact Or.inl (Int.tmod_eq_zero_of_dvd hdvd)
    · exact Or.inr (by rw [Int.sign_tmod, if_neg hdvd])
  · rw [← Int.tmod_def, Int.natAbs_tmod]
    have hnonzero : r.toInt ≠ 0 := by
      rw [← BitVec.toInt_zero (w := kind.bits)]
      exact mt BitVec.toInt_inj.mp hr
    exact Nat.mod_lt _ (Int.natAbs_pos.mpr hnonzero)
  · -- A multiple of the size is lost with the quotient, and so is a multiple of it here.
    rw [← bmod_eq_wrapped kind.bits_pos, ← bmod_eq_wrapped kind.bits_pos, ← Int.tmod_def,
      Int.add_bmod, Int.bmod_mul_bmod, ← Int.add_bmod, Int.tdiv_mul_add_tmod,
      BitVec.toInt_bmod_cancel]

/-- The one quotient that does not fit. -/
theorem divides_least : kind.Divides (.intMin _) (-1) (-2 ^ (kind.bits - 1)) 0 := by
  cases kind with
  | int =>
    exact ⟨⟨.intMin 32, rfl, by decide⟩, ⟨0, rfl, by decide⟩, Or.inl rfl, by decide, by decide⟩
  | long =>
    exact ⟨⟨.intMin 64, rfl, by decide⟩, ⟨0, rfl, by decide⟩, Or.inl rfl, by decide, by decide⟩

end WordKind

/-! ## Bits -/

/-- The operation on one bit of each number. -/
def BitOp.onBits : BitOp → Bool → Bool → Bool
  | .and, a, b => a && b
  | .or, a, b => a || b
  | .xor, a, b => a != b

/-- In two's complement the sign goes on forever. -/
theorem testBit_toInt {w : Nat} (word : BitVec w) (i : Nat) :
    word.toInt.testBit i = if i < w then word.getLsbD i else word.msb := by
  cases hsign : word.msb with
  | false =>
    have hplain : word.toInt.testBit i = word.getLsbD i := by
      rw [BitVec.toInt_eq_toNat_of_msb hsign]
      rfl
    rw [hplain]
    split
    · rfl
    · exact BitVec.getLsbD_of_ge _ _ (by omega)
  | true =>
    have hrest : word.toInt = Int.negSucc (~~~word).toNat := by
      rw [BitVec.toInt_eq_msb_cond, if_pos hsign, BitVec.toNat_not]
      omega
    have hflipped : word.toInt.testBit i = !(~~~word).getLsbD i := by
      rw [hrest]
      rfl
    rw [hflipped, BitVec.getLsbD_not]
    split <;> simp_all

theorem BitOp.testBit_onWords {w : Nat} (op : BitOp) (l r : BitVec w) (i : Nat) :
    (op.onWords l r).toInt.testBit i =
      op.onBits (l.toInt.testBit i) (r.toInt.testBit i) := by
  simp only [testBit_toInt]
  cases op <;> split <;> simp [onWords, onBits]

/-! ## Shifts -/

/-- The number that the bits are without a sign. -/
theorem toInt_emod_two_pow {w : Nat} (word : BitVec w) : word.toInt % 2 ^ w = word.toNat := by
  have hlt : (word.toNat : Int) < 2 ^ w := by exact_mod_cast word.isLt
  rw [BitVec.toInt_eq_toNat_cond]
  split
  · exact Int.emod_eq_of_lt (Int.natCast_nonneg _) hlt
  · rw [Int.natCast_pow]
    show ((word.toNat : Int) - 2 ^ w) % 2 ^ w = _
    rw [Int.sub_emod_right]
    exact Int.emod_eq_of_lt (Int.natCast_nonneg _) hlt

namespace WordKind

variable (kind : WordKind)

theorem places_eq (count : BitVec 32) : kind.places count = count.toNat % kind.bits := by
  have hcases := BitVec.toInt_eq_toNat_cond count
  cases kind <;> simp only [places, bits] <;> split at hcases <;> omega

/-- The places are cut off on the left, filled with the sign or filled with zeros. -/
structure ExactShifts (kind : WordKind) (word : BitVec kind.bits) (count : BitVec 32) : Prop where
  left : kind.Gives (kind.shift .left word count)
    (wrapped kind.bits (word.toInt * 2 ^ kind.places count))
  arithmeticRight : kind.Gives (kind.shift .arithmeticRight word count)
    (word.toInt.fdiv (2 ^ kind.places count))
  logicalRight : kind.Gives (kind.shift .logicalRight word count)
    (wrapped kind.bits ((word.toInt % 2 ^ kind.bits).fdiv (2 ^ kind.places count)))

theorem exactShifts (word : BitVec kind.bits) (count : BitVec 32) :
    kind.ExactShifts word count where
  left := by
    refine ⟨_, kind.shift_eq word .left count, ?_⟩
    rw [ShiftOp.onWords, ← places_eq, BitVec.toInt_shiftLeft, ← bmod_eq_wrapped kind.bits_pos,
      BitVec.toInt_eq_toNat_bmod, Int.bmod_mul_bmod, Nat.shiftLeft_eq, Int.natCast_mul,
      Int.natCast_pow]
    rfl
  arithmeticRight := by
    refine ⟨_, kind.shift_eq word .arithmeticRight count, ?_⟩
    rw [ShiftOp.onWords, ← places_eq, BitVec.toInt_sshiftRight, Int.shiftRight_eq_div_pow,
      Int.fdiv_eq_ediv_of_nonneg _ (Int.pow_nonneg (by decide)), Int.natCast_pow]
    rfl
  logicalRight := by
    refine ⟨_, kind.shift_eq word .logicalRight count, ?_⟩
    rw [ShiftOp.onWords, ← places_eq, BitVec.toInt_eq_toNat_bmod, BitVec.toNat_ushiftRight,
      ← bmod_eq_wrapped kind.bits_pos, toInt_emod_two_pow,
      Int.fdiv_eq_ediv_of_nonneg _ (Int.pow_nonneg (by decide)), Nat.shiftRight_eq_div_pow,
      Int.natCast_ediv, Int.natCast_pow]
    rfl

end WordKind

/-! ## Conversions and increments -/

theorem toInt_setWidth_eq_wrapped {w kept : Nat} (hpos : 0 < kept) (hle : kept ≤ w)
    (word : BitVec w) : (word.setWidth kept).toInt = wrapped kept word.toInt := by
  rw [← bmod_eq_wrapped hpos, BitVec.toInt_setWidth, BitVec.toInt_eq_toNat_bmod,
    Int.bmod_bmod_of_dvd (Nat.pow_dvd_pow 2 hle)]

theorem toInt_signedPart {w kept : Nat} (hpos : 0 < kept) (hle : kept ≤ w) (word : BitVec w) :
    (signedPart kept word).toInt = wrapped kept word.toInt := by
  rw [signedPart, BitVec.toInt_signExtend_of_le hle, toInt_setWidth_eq_wrapped hpos hle]

theorem toInt_unsignedPart {w kept : Nat} (hlt : kept < w) (word : BitVec w) :
    (unsignedPart kept word).toInt = reduced 0 (2 ^ kept) word.toInt := by
  have hkept : word.toNat % 2 ^ kept < 2 ^ kept := Nat.mod_lt _ (Nat.two_pow_pos kept)
  have hroom : 2 * 2 ^ kept ≤ 2 ^ w := by
    rw [← Nat.pow_succ']
    exact Nat.pow_le_pow_right (by decide) hlt
  have hnat : (unsignedPart kept word).toNat = word.toNat % 2 ^ kept := by
    rw [unsignedPart, BitVec.toNat_setWidth, BitVec.toNat_setWidth, Nat.mod_eq_of_lt (by omega)]
  have hdvd : ((2 ^ kept : Nat) : Int) ∣ ((2 ^ w : Nat) : Int) :=
    Int.natCast_dvd_natCast.mpr (Nat.pow_dvd_pow 2 (Nat.le_of_lt hlt))
  have hplain : word.toInt % (2 ^ w : Nat) = word.toNat := by
    rw [Int.natCast_pow]
    exact toInt_emod_two_pow word
  rw [BitVec.toInt_eq_toNat_of_lt (by omega), hnat, reduced, Int.zero_add, Int.sub_zero,
    ← Int.emod_emod_of_dvd _ hdvd, hplain, Int.natCast_emod]

/-- The instruction on a value. -/
def Conversion.onValue (conversion : Conversion) (v : Value) : Except Fault (Option Value) :=
  (Instruction.unary (.convert conversion)).unaryOperation v

/-- Conversions that make a number shorter keep as much of it as fits, the others all of it. An
increment is a sum. -/
structure ExactConversions : Prop where
  increment : ∀ slot amount word,
    WordKind.int.Gives ((Instruction.increment slot amount).unaryOperation (.int (some word)))
      (wrapped 32 (word.toInt + amount.toInt))
  longToInt : ∀ word,
    WordKind.int.Gives (Conversion.longToInt.onValue (.long (some word)))
      (wrapped 32 word.toInt)
  intToLong : ∀ word,
    WordKind.long.Gives (Conversion.intToLong.onValue (.int (some word))) word.toInt
  intToByte : ∀ word,
    WordKind.int.Gives (Conversion.intToByte.onValue (.int (some word)))
      (reduced (-128) 256 word.toInt)
  intToChar : ∀ word,
    WordKind.int.Gives (Conversion.intToChar.onValue (.int (some word)))
      (reduced 0 65536 word.toInt)
  intToShort : ∀ word,
    WordKind.int.Gives (Conversion.intToShort.onValue (.int (some word)))
      (reduced (-32768) 65536 word.toInt)

theorem exactConversions : ExactConversions where
  increment := by
    intro slot amount word
    have hsum : (word + amount.signExtend 32).toInt = wrapped 32 (word.toInt + amount.toInt) := by
      rw [BitVec.toInt_add, BitVec.toInt_signExtend_of_le (by decide),
        bmod_eq_wrapped (by decide)]
    exact ⟨_, rfl, hsum⟩
  longToInt := fun word =>
    ⟨word.setWidth 32, rfl, toInt_setWidth_eq_wrapped (by decide) (by decide) word⟩
  intToLong := fun word =>
    ⟨word.signExtend 64, rfl, BitVec.toInt_signExtend_of_le (by decide)⟩
  intToByte := fun word =>
    ⟨signedPart 8 word, rfl, toInt_signedPart (by decide) (by decide) word⟩
  intToChar := fun word =>
    ⟨unsignedPart 16 word, rfl, toInt_unsignedPart (by decide) word⟩
  intToShort := fun word =>
    ⟨signedPart 16 word, rfl, toInt_signedPart (by decide) (by decide) word⟩

/-- Folding of integers is exact. Whatever known numbers an operation on words is given, its
result is known, and it is what exact arithmetic gives, brought back into the range of the words
by the one multiple of its size that does so. Only a division by zero has no known result. Bit
operations act on two's complement, shifts go by their count within the width, and conversions
keep what fits. -/
theorem integer_folding_is_exact :
    (∀ low n m size, 0 < size →
      (m = reduced low size n ↔ low ≤ m ∧ m < low + size ∧ (size : Int) ∣ m - n)) ∧
    (∀ kind : WordKind, ∀ l r,
      kind.ExactArithmetic l r ∧
      (r ≠ 0 → ∃ quotient remainder, kind.Divides l r quotient remainder) ∧
      ∀ op, ∃ n, kind.Gives (kind.bitwise op l r) n ∧
        ∀ i, n.testBit i = op.onBits (l.toInt.testBit i) (r.toInt.testBit i)) ∧
    (∀ kind : WordKind, kind.Divides (.intMin _) (-1) (-2 ^ (kind.bits - 1)) 0) ∧
    (∀ kind : WordKind, ∀ word count, kind.ExactShifts word count) ∧
    ExactConversions := by
  refine ⟨fun _ _ _ _ hsize => eq_reduced_iff hsize, ?_, WordKind.divides_least,
    WordKind.exactShifts, exactConversions⟩
  intro kind l r
  refine ⟨kind.exactArithmetic l r, kind.exists_divides l r, ?_⟩
  intro op
  exact ⟨_, ⟨_, kind.bitwise_eq l r op, rfl⟩, op.testBit_onWords l r⟩

/-! ## Minus seven by two -/

/-- The quotient goes up, toward zero, and the remainder is negative as the dividend is. As a
byte, two hundred is less than nothing. -/
theorem minus_seven_by_two_leaves_minus_one :
    WordKind.int.Gives (WordKind.int.arith .div (-7) 2) (-3) ∧
      WordKind.int.Gives (WordKind.int.arith .rem (-7) 2) (-1) ∧
      (∃ quotient remainder, WordKind.int.Divides (-7) 2 quotient remainder) ∧
      reduced (-128) 256 200 = -56 := by
  obtain ⟨hreduced, hwords, -⟩ := integer_folding_is_exact
  have htwo : (2 : BitVec WordKind.int.bits) ≠ 0 := by decide
  obtain ⟨hexact, hdivides, -⟩ := hwords .int (-7) 2
  exact ⟨hexact.div htwo, hexact.rem htwo, hdivides htwo,
    ((hreduced (-128) 200 (-56) 256 (by decide)).mpr (by decide)).symm⟩

end SymbolicFrames
