-- One opcode executed on a frame. What an opcode takes off the stack is told by the lists here,
-- and the value to push is then asked for by the number of values taken. Copies are told value
-- by value, with a form for each way in which the widths can fall.
import SymbolicFrames.Frame.Execute
import SymbolicFrames.Opcode.Folding

namespace SymbolicFrames.Frame

/-- Takes a value that has to be so wide. -/
def popExpecting (f : Frame) (width : Nat) : Except Fault (Value × Frame) := do
  let (v, rest) ← f.pop
  if v.width = width then .ok (v, rest) else .error (.invalidWidth v.width)

/-- Takes so many values at once, given in the order in which they were pushed. -/
def popMany (f : Frame) (count : Nat) : Except Fault (List Value × Frame) :=
  if f.stack.length < count then
    .error .emptyStack
  else
    .ok ((f.stack.take count).reverse, { f with stack := f.stack.drop count })

def executeOpcode (f : Frame) (op : Opcode) : Except Fault Frame :=
  match op with
  | .nop | .goto _ | .ret _ | .returnVoid => .ok f

  | .aconstNull
  | .iconstM1 | .iconst0 | .iconst1 | .iconst2 | .iconst3 | .iconst4 | .iconst5
  | .lconst0 | .lconst1 | .fconst0 | .fconst1 | .fconst2 | .dconst0 | .dconst1
  | .bipush _ | .sipush _ | .ldc _ | .new _ | .getStatic _ | .jsr _ => do
    let value ← op.pushValue
    f.push value

  | .iload slot | .lload slot | .fload slot | .dload slot | .aload slot => do
    let value ← op.copyValue (← f.getLocal slot)
    f.push value

  | .istore slot | .lstore slot | .fstore slot | .dstore slot | .astore slot => do
    let (value, f) ← f.pop
    let value ← op.copyValue value
    f.setLocal slot value

  | .iinc slot _ => do
    match ← op.unaryValue (← f.getLocal slot) with
    | some value => f.setLocal slot value
    | none => .error (.internal .noIncrement)

  | .iastore | .lastore | .fastore | .dastore | .aastore | .bastore | .castore | .sastore => do
    let (value, f) ← f.pop
    let (index, f) ← f.pop
    let (array, f) ← f.pop
    let output ← op.ternaryValue array index value
    f.pushOption output

  | .pop => do
    let (_, f) ← f.popExpecting 1
    .ok f

  | .pop2 => do
    let (a, f) ← f.pop
    match a.width with
    | 1 => do
      let (_, f) ← f.popExpecting 1
      .ok f
    | 2 => .ok f
    | other => .error (.invalidWidth other)

  | .dup => do
    let (a, f) ← f.popExpecting 1
    let copy ← op.copyValue a
    let f ← f.push a
    f.push copy

  | .dupX1 => do
    let (a, f) ← f.popExpecting 1
    let (b, f) ← f.popExpecting 1
    let copy ← op.copyValue a
    let f ← f.push copy
    let f ← f.push b
    f.push a

  | .dupX2 => do
    let (a, f) ← f.popExpecting 1
    let (b, f) ← f.pop
    let copy ← op.copyValue a
    match b.width with
    | 1 => do
      let (c, f) ← f.popExpecting 1
      let f ← f.push copy
      let f ← f.push c
      let f ← f.push b
      f.push a
    | 2 => do
      let f ← f.push copy
      let f ← f.push b
      f.push a
    | other => .error (.invalidWidth other)

  | .dup2 => do
    let (a, f) ← f.pop
    let copy ← op.copyValue a
    match a.width with
    | 1 => do
      let (b, f) ← f.popExpecting 1
      let copy' ← op.copyValue b
      let f ← f.push b
      let f ← f.push a
      let f ← f.push copy'
      f.push copy
    | 2 => do
      let f ← f.push a
      f.push copy
    | other => .error (.invalidWidth other)

  | .dup2X1 => do
    let (a, f) ← f.pop
    let copy ← op.copyValue a
    match a.width with
    | 1 => do
      let (b, f) ← f.popExpecting 1
      let (c, f) ← f.popExpecting 1
      let copy' ← op.copyValue b
      let f ← f.push copy'
      let f ← f.push copy
      let f ← f.push c
      let f ← f.push b
      f.push a
    | 2 => do
      let (b, f) ← f.popExpecting 1
      let f ← f.push copy
      let f ← f.push b
      f.push a
    | other => .error (.invalidWidth other)

  | .dup2X2 => do
    let (a, f) ← f.pop
    let copy ← op.copyValue a
    match a.width with
    | 1 => do
      let (b, f) ← f.popExpecting 1
      let copy' ← op.copyValue b
      let (c, f) ← f.pop
      match c.width with
      | 1 => do
        let (d, f) ← f.popExpecting 1
        let f ← f.push copy'
        let f ← f.push copy
        let f ← f.push d
        let f ← f.push c
        let f ← f.push b
        f.push a
      | 2 => do
        let f ← f.push copy'
        let f ← f.push copy
        let f ← f.push c
        let f ← f.push b
        f.push a
      | other => .error (.invalidWidth other)
    | 2 => do
      let (b, f) ← f.pop
      match b.width with
      | 1 => do
        let (c, f) ← f.popExpecting 1
        let f ← f.push copy
        let f ← f.push c
        let f ← f.push b
        f.push a
      | 2 => do
        let f ← f.push copy
        let f ← f.push b
        f.push a
      | other => .error (.invalidWidth other)
    | other => .error (.invalidWidth other)

  | .swap => do
    let (a, f) ← f.popExpecting 1
    let (b, f) ← f.popExpecting 1
    let copy ← op.copyValue a
    let copy' ← op.copyValue b
    let f ← f.push copy
    f.push copy'

  | .ineg | .lneg | .fneg | .dneg
  | .i2l | .i2f | .i2d | .l2i | .l2f | .l2d | .f2i | .f2l | .f2d | .d2i | .d2l | .d2f
  | .i2b | .i2c | .i2s
  | .getField _ | .arrayLength | .instanceOf _ | .checkCast _ | .newArray _ | .anewArray _
  | .ifZero _ _ | .ifNull _ _ | .tableSwitch _ _ _ | .lookupSwitch _ _
  | .ireturn | .lreturn | .freturn | .dreturn | .areturn
  | .putStatic _ | .athrow | .monitorEnter | .monitorExit => do
    let (value, f) ← f.pop
    let output ← op.unaryValue value
    f.pushOption output

  | .iadd | .ladd | .fadd | .dadd | .isub | .lsub | .fsub | .dsub
  | .imul | .lmul | .fmul | .dmul | .idiv | .ldiv | .fdiv | .ddiv
  | .irem | .lrem | .frem | .drem
  | .ish _ | .lsh _ | .iand | .land | .ior | .lor | .ixor | .lxor
  | .lcmp | .fcmp _ | .dcmp _
  | .iaload | .laload | .faload | .daload | .aaload | .baload | .caload | .saload
  | .ifICmp _ _ | .ifACmp _ _ | .putField _ => do
    let (right, f) ← f.pop
    let (left, f) ← f.pop
    let output ← op.binaryValue left right
    f.pushOption output

  | .invoke kind method => do
    let receiver := if kind.hasReceiver then 1 else 0
    let (values, f) ← f.popMany (method.type.parameters.length + receiver)
    let output ← op.naryValue values
    f.pushOption output

  | .invokeDynamic site => do
    let (values, f) ← f.popMany site.type.parameters.length
    let output ← op.naryValue values
    f.pushOption output

  | .multiANewArray _ dimensions => do
    let (values, f) ← f.popMany dimensions
    let output ← op.naryValue values
    f.pushOption output

end SymbolicFrames.Frame
