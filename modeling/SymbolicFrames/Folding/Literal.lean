-- Operations on literals. Integers wrap around at their width, and a division or remainder
-- by zero has no result, so that it is left to the running program.
import SymbolicFrames.Ieee.Arithmetic
import SymbolicFrames.Instruction.Basic

namespace SymbolicFrames

/-! ## Integers of any width -/

/-- Division goes toward zero, and the remainder has the sign of the dividend. -/
def ArithOp.onWords {w : Nat} (op : ArithOp) (l r : BitVec w) : Option (BitVec w) :=
  match op with
  | .add => some (l + r)
  | .sub => some (l - r)
  | .mul => some (l * r)
  | .div => if r = 0 then none else some (l.sdiv r)
  | .rem => if r = 0 then none else some (l.srem r)

def BitOp.onWords {w : Nat} (op : BitOp) (l r : BitVec w) : BitVec w :=
  match op with
  | .and => l &&& r
  | .or => l ||| r
  | .xor => l ^^^ r

/-- Only as much of the count matters as the width has bits. -/
def ShiftOp.onWords {w : Nat} (op : ShiftOp) (word : BitVec w) (count : BitVec 32) : BitVec w :=
  let amount := count.toNat % w
  match op with
  | .left => word <<< amount
  | .logicalRight => word >>> amount
  | .arithmeticRight => word.sshiftRight amount

/-- The low bits, read as a number with a sign. -/
def signedPart {w : Nat} (kept : Nat) (word : BitVec w) : BitVec w :=
  (word.setWidth kept).signExtend w

/-- The low bits, read as a number without a sign. -/
def unsignedPart {w : Nat} (kept : Nat) (word : BitVec w) : BitVec w :=
  (word.setWidth kept).setWidth w

/-! ## Floating-point numbers -/

/-- Both zeros are zero to a division. -/
def ArithOp.onBinaries {f : Format} (op : ArithOp) (x y : Binary f) : Option (Binary f) :=
  match op with
  | .add => some (x.add y)
  | .sub => some (x.sub y)
  | .mul => some (x.mul y)
  | .div => if y.isZero then none else some (x.div y)
  | .rem => if y.isZero then none else some (x.rem y)

end SymbolicFrames
