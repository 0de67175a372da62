-- The same operations asked of any instruction, by the number of values it takes. Asking an
-- instruction that takes another number is a defect of the caller.
import SymbolicFrames.Folding.Operation

namespace SymbolicFrames.Instruction

/-- Instructions that take nothing and give one value. -/
def pushOperation : Instruction → Except Fault Value
  | .push op => op.value
  | _ => .error (.internal .notPush)

/-- Whether the instruction moves values as they are: loads, stores, copies and swaps. -/
def isCopy : Instruction → Bool
  | .load .. | .store .. => true
  | .shuffle op => op != .pop && op != .pop2
  | _ => false

def copyOperation (i : Instruction) (v : Value) : Except Fault Value :=
  if i.isCopy then .ok v else .error (.internal .notCopy)

/-- Instructions that take one value and give at most one. -/
def unaryOperation (i : Instruction) (v : Value) : Except Fault (Option Value) :=
  match i with
  | .unary op => op.result v
  | .increment _ amount => .ok (some (v.increment amount))
  | _ => .error (.internal .notUnary)

/-- Instructions that take two values and give at most one. -/
def binaryOperation (i : Instruction) (l r : Value) : Except Fault (Option Value) :=
  match i with
  | .binary op => .ok (op.result l r)
  | _ => .error (.internal .notBinary)

/-- Instructions that take an array, an index and a value, and give nothing. -/
def ternaryOperation (i : Instruction) (_array _index _value : Value) :
    Except Fault (Option Value) :=
  match i with
  | .arrayStore _ => .ok none
  | _ => .error (.internal .notTernary)

/-- Instructions that take as many values as their operands say. Nothing is known about
what a call returns but its type. -/
def naryOperation (i : Instruction) (_values : List Value) : Except Fault (Option Value) :=
  match i with
  | .invoke _ method => .ok (Value.ofResultType method.type.result)
  | .invokeDynamic site => .ok (Value.ofResultType site.type.result)
  | .newMultiArray type _ => .ok (some (.reference type))
  | _ => .error (.internal .notNary)

end SymbolicFrames.Instruction
