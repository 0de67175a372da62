-- One instruction executed on a frame. A branch only takes its operands: where control goes
-- next is told by the graph.
import SymbolicFrames.Folding.Operation
import SymbolicFrames.Frame.Basic

namespace SymbolicFrames

/-! ## Shuffles -/

/-- Takes values off a stack until exactly so many slots are taken. A value that would take
more than what is left to take is a fault. -/
def takeSlots : Nat → List Value → Except Fault (List Value × List Value)
  | 0, stack => .ok ([], stack)
  | _ + 1, [] => .error .emptyStack
  | slots + 1, v :: rest =>
    if slots + 1 < v.width then
      .error (.invalidWidth v.width)
    else do
      let (taken, left) ← takeSlots (slots + 1 - v.width) rest
      return (v :: taken, left)

namespace Shuffle

/-- Slots taken off the top, which are dropped, copied or swapped. -/
def topSlots : Shuffle → Nat
  | .pop | .dup | .dupX1 | .dupX2 | .swap => 1
  | .pop2 | .dup2 | .dup2X1 | .dup2X2 => 2

/-- Slots beneath those that are passed over. -/
def underSlots : Shuffle → Nat
  | .pop | .pop2 | .dup | .dup2 => 0
  | .dupX1 | .dup2X1 | .swap => 1
  | .dupX2 | .dup2X2 => 2

/-- What is put back for what was taken, top first. -/
def arrange (op : Shuffle) (top under : List Value) : List Value :=
  match op with
  | .pop | .pop2 => []
  | .swap => under ++ top
  | .dup | .dupX1 | .dupX2 | .dup2 | .dup2X1 | .dup2X2 => top ++ under ++ top

end Shuffle

namespace Frame

def shuffle (f : Frame) (op : Shuffle) : Except Fault Frame := do
  let (top, afterTop) ← takeSlots op.topSlots f.stack
  let (under, left) ← takeSlots op.underSlots afterTop
  { f with stack := left }.pushAll (op.arrange top under)

/-! ## Calls -/

/-- Takes as many entries as a call has operands, whatever their widths, and pushes what it
gives. -/
def call (f : Frame) (operands : Nat) (result : Option Value) : Except Fault Frame := do
  (← f.drop operands).pushOption result

/-- Number of entries that a call to the method takes. -/
def operandCount (kind : CallKind) (type : MethodDescriptor) : Nat :=
  type.parameters.length + if kind.hasReceiver then 1 else 0

/-! ## Instructions -/

def execute (f : Frame) (i : Instruction) : Except Fault Frame :=
  match i with
  | .nop | .goto _ | .ret _ | .returnVoid => .ok f
  | .push op => do f.push (← op.value)
  | .load _ slot => do f.push (← f.getLocal slot)
  | .store _ slot => do
    let (v, rest) ← f.pop
    rest.setLocal slot v
  | .increment slot amount => do f.setLocal slot ((← f.getLocal slot).increment amount)
  | .unary op => do
    let (v, rest) ← f.pop
    rest.pushOption (← op.result v)
  | .binary op => do
    let (right, rest) ← f.pop
    let (left, rest) ← rest.pop
    rest.pushOption (op.result left right)
  | .arrayStore _ => f.drop 3
  | .shuffle op => f.shuffle op
  | .invoke kind method =>
    f.call (operandCount kind method.type) (Value.ofResultType method.type.result)
  | .invokeDynamic site =>
    f.call site.type.parameters.length (Value.ofResultType site.type.result)
  | .newMultiArray type dimensions => f.call dimensions (some (.reference type))

end Frame

end SymbolicFrames
