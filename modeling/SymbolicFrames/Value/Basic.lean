-- What is known about one value on the operand stack or in a local variable: its category,
-- how many slots it takes and, where the code tells, the very value.
import SymbolicFrames.Descriptor.Basic
import SymbolicFrames.Ieee.Basic

namespace SymbolicFrames

inductive Category where
  | int | long | float | double | reference | returnAddress | uninitialized | top
deriving DecidableEq

/-- A number without a literal is any number of its category. A reference is known by its
static type only, except for constant strings. Equality is exact, and on floating-point
literals it is equality of bits. -/
inductive Value where
  | int (literal : Option (BitVec 32))
  | long (literal : Option (BitVec 64))
  | float (literal : Option Binary32)
  | double (literal : Option Binary64)
  | null
  | reference (type : RefType)
  | string (text : String)
  | returnAddress
  /-- A local not written yet, or the second slot of a wide one. -/
  | uninitialized
  /-- What is left of values that disagree. -/
  | top
  /-- What is left of values of two slots that disagree. It still takes two slots. -/
  | wideTop
deriving DecidableEq

namespace Value

def object (name : ClassName) : Value := .reference (.object name)

/-- Stands in the slot after a wide local. -/
def continuation : Value := .uninitialized

/-- Any value of the type. The small integer types are all held as `int`. -/
def ofFieldType : FieldType → Value
  | .base .float => .float none
  | .base .long => .long none
  | .base .double => .double none
  | .base _ => .int none
  | .ref t => .reference t

def ofResultType (result : Option FieldType) : Option Value :=
  result.map ofFieldType

def category : Value → Category
  | .int _ => .int
  | .long _ => .long
  | .float _ => .float
  | .double _ => .double
  | .null | .reference _ | .string _ => .reference
  | .returnAddress => .returnAddress
  | .uninitialized => .uninitialized
  | .top | .wideTop => .top

/-- Number of slots the value takes. -/
def width : Value → Nat
  | .long _ | .double _ | .wideTop => 2
  | .int _ | .float _ | .null | .reference _ | .string _ | .returnAddress | .uninitialized
  | .top => 1

/-! ## Literals -/

def hasLiteral : Value → Bool
  | .int literal => literal.isSome
  | .long literal => literal.isSome
  | .float literal => literal.isSome
  | .double literal => literal.isSome
  | .string _ => true
  | _ => false

/-- The same category with nothing known about the value. -/
def withoutLiteral : Value → Value
  | .int _ => .int none
  | .long _ => .long none
  | .float _ => .float none
  | .double _ => .double none
  | .string _ => object .string
  | v => v

def int? : Value → Option (BitVec 32)
  | .int literal => literal
  | _ => none

def long? : Value → Option (BitVec 64)
  | .long literal => literal
  | _ => none

def float? : Value → Option Binary32
  | .float literal => literal
  | _ => none

def double? : Value → Option Binary64
  | .double literal => literal
  | _ => none

def string? : Value → Option String
  | .string text => some text
  | _ => none

/-- Static type of a reference, where there is one. -/
def refType? : Value → Option RefType
  | .reference t => some t
  | .string _ => some (.object .string)
  | _ => none

/-! ## Joining -/

/-- What holds on both of two paths. Only agreement keeps anything, and of values that
disagree only a common width of two slots is kept. -/
def merge (v w : Value) : Value :=
  if v = w then v
  else if v.width = 2 ∧ w.width = 2 then .wideTop
  else .top

/-- How often a merge can still change the value. -/
def rank : Value → Nat
  | .top => 0
  | .wideTop => 1
  | _ => 2

theorem rank_pos {v : Value} (h : v ≠ .top) : 0 < v.rank := by
  cases v with
  | top => exact absurd rfl h
  | _ => exact Nat.zero_lt_succ _

theorem one_lt_rank {v : Value} (hwidth : v.width = 2) (h : v ≠ .wideTop) : 1 < v.rank := by
  cases v with
  | long _ | double _ => exact Nat.lt_succ_self 1
  | wideTop => exact absurd rfl h
  | _ => exact absurd hwidth (by simp [width])

theorem rank_merge_lt {v w : Value} (h : v.merge w ≠ v) : (v.merge w).rank < v.rank := by
  by_cases heq : v = w
  · exact absurd (by simp [merge, heq]) h
  · by_cases hwide : v.width = 2 ∧ w.width = 2
    · have hmerge : v.merge w = .wideTop := by simp [merge, heq, hwide]
      rw [hmerge] at h ⊢
      exact one_lt_rank hwide.1 h.symm
    · have hmerge : v.merge w = .top := by simp [merge, heq, hwide]
      rw [hmerge] at h ⊢
      exact rank_pos h.symm

theorem rank_merge_le (v w : Value) : (v.merge w).rank ≤ v.rank := by
  by_cases h : v.merge w = v
  · exact Nat.le_of_eq (congrArg rank h)
  · exact Nat.le_of_lt (rank_merge_lt h)

end Value

end SymbolicFrames
