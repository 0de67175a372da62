-- The values that opcodes give for the values they take, with one list for each number of
-- values taken. An opcode that is missing from a list is answered with a defect there: whoever
-- asked has counted its operands otherwise.
import SymbolicFrames.Folding.Operation
import SymbolicFrames.Opcode.Basic

namespace SymbolicFrames.Opcode

/-! ## Nothing taken, or taken as it is -/

def pushValue : Opcode → Except Fault Value
  | .aconstNull => .ok .null
  | .iconstM1 => .ok (.int (some (-1)))
  | .iconst0 => .ok (.int (some 0))
  | .iconst1 => .ok (.int (some 1))
  | .iconst2 => .ok (.int (some 2))
  | .iconst3 => .ok (.int (some 3))
  | .iconst4 => .ok (.int (some 4))
  | .iconst5 => .ok (.int (some 5))
  | .lconst0 => .ok (.long (some 0))
  | .lconst1 => .ok (.long (some 1))
  | .fconst0 => .ok (.float (some (Binary.ofInt .single 0)))
  | .fconst1 => .ok (.float (some (Binary.ofInt .single 1)))
  | .fconst2 => .ok (.float (some (Binary.ofInt .single 2)))
  | .dconst0 => .ok (.double (some (Binary.ofInt .double 0)))
  | .dconst1 => .ok (.double (some (Binary.ofInt .double 1)))
  | .bipush value => .ok (.int (some (value.signExtend 32)))
  | .sipush value => .ok (.int (some (value.signExtend 32)))
  | .ldc value => value.value
  | .new name => .ok (.object name)
  | .getStatic field => .ok (.ofFieldType field.type)
  | .jsr _ => .ok .returnAddress
  | _ => .error (.internal .notPush)

/-- Loads, stores, copies and swaps. -/
def copyValue (op : Opcode) (v : Value) : Except Fault Value :=
  match op with
  | .iload _ | .lload _ | .fload _ | .dload _ | .aload _
  | .istore _ | .lstore _ | .fstore _ | .dstore _ | .astore _
  | .dup | .dupX1 | .dupX2 | .dup2 | .dup2X1 | .dup2X2 | .swap => .ok v
  | _ => .error (.internal .notCopy)

/-! ## One value -/

def unaryValue (op : Opcode) (v : Value) : Except Fault (Option Value) :=
  match op with
  | .ineg => .ok (some (.int (v.int?.map fun n => -n)))
  | .lneg => .ok (some (.long (v.long?.map fun n => -n)))
  | .fneg => .ok (some (.float (v.float?.map Binary.neg)))
  | .dneg => .ok (some (.double (v.double?.map Binary.neg)))
  | .iinc _ amount => .ok (some (.int (v.int?.map fun n => n + amount.signExtend 32)))
  | .i2l => .ok (some (.long (v.int?.map fun n => n.signExtend 64)))
  | .i2f => .ok (some (.float (v.int?.map fun n => Binary.ofInt .single n.toInt)))
  | .i2d => .ok (some (.double (v.int?.map fun n => Binary.ofInt .double n.toInt)))
  | .l2i => .ok (some (.int (v.long?.map fun n => n.setWidth 32)))
  | .l2f => .ok (some (.float (v.long?.map fun n => Binary.ofInt .single n.toInt)))
  | .l2d => .ok (some (.double (v.long?.map fun n => Binary.ofInt .double n.toInt)))
  | .f2i => .ok (some (.int (v.float?.map (Binary.toWord 32))))
  | .f2l => .ok (some (.long (v.float?.map (Binary.toWord 64))))
  | .f2d => .ok (some (.double (v.float?.map (Binary.convert .double))))
  | .d2i => .ok (some (.int (v.double?.map (Binary.toWord 32))))
  | .d2l => .ok (some (.long (v.double?.map (Binary.toWord 64))))
  | .d2f => .ok (some (.float (v.double?.map (Binary.convert .single))))
  | .i2b => .ok (some (.int (v.int?.map (signedPart 8))))
  | .i2c => .ok (some (.int (v.int?.map (unsignedPart 16))))
  | .i2s => .ok (some (.int (v.int?.map (signedPart 16))))
  | .getField field => .ok (some (.ofFieldType field.type))
  | .arrayLength | .instanceOf _ => .ok (some (.int none))
  | .checkCast type => .ok (some (.reference type))
  | .newArray tag =>
    match BaseType.ofArrayTag? tag with
    | some element => .ok (some (.reference (FieldType.base element).array))
    | none => .error (.invalidArrayTag tag)
  | .anewArray element => .ok (some (.reference (FieldType.ref element).array))
  | .ifZero _ _ | .ifNull _ _ | .tableSwitch _ _ _ | .lookupSwitch _ _
  | .ireturn | .lreturn | .freturn | .dreturn | .areturn
  | .putStatic _ | .athrow | .monitorEnter | .monitorExit => .ok none
  | _ => .error (.internal .notUnary)

/-! ## Two values -/

def foldInt (op : Opcode) (l r : BitVec 32) : Option (BitVec 32) :=
  match op with
  | .iadd => some (l + r)
  | .isub => some (l - r)
  | .imul => some (l * r)
  | .idiv => if r = 0 then none else some (l.sdiv r)
  | .irem => if r = 0 then none else some (l.srem r)
  | .iand => some (l &&& r)
  | .ior => some (l ||| r)
  | .ixor => some (l ^^^ r)
  | .ish .left => some (l <<< (r.toNat % 32))
  | .ish .arithmeticRight => some (l.sshiftRight (r.toNat % 32))
  | .ish .logicalRight => some (l >>> (r.toNat % 32))
  | _ => none

def foldLong (op : Opcode) (l r : BitVec 64) : Option (BitVec 64) :=
  match op with
  | .ladd => some (l + r)
  | .lsub => some (l - r)
  | .lmul => some (l * r)
  | .ldiv => if r = 0 then none else some (l.sdiv r)
  | .lrem => if r = 0 then none else some (l.srem r)
  | .land => some (l &&& r)
  | .lor => some (l ||| r)
  | .lxor => some (l ^^^ r)
  | _ => none

/-- The count is an `int`, unlike what is shifted. -/
def shiftLong (shift : ShiftOp) (l : BitVec 64) (r : BitVec 32) : BitVec 64 :=
  let amount := r.toNat % 64
  match shift with
  | .left => l <<< amount
  | .arithmeticRight => l.sshiftRight amount
  | .logicalRight => l >>> amount

def foldFloat (op : Opcode) (l r : Binary32) : Option Binary32 :=
  match op with
  | .fadd => some (l.add r)
  | .fsub => some (l.sub r)
  | .fmul => some (l.mul r)
  | .fdiv => if r.isZero then none else some (l.div r)
  | .frem => if r.isZero then none else some (l.rem r)
  | _ => none

def foldDouble (op : Opcode) (l r : Binary64) : Option Binary64 :=
  match op with
  | .dadd => some (l.add r)
  | .dsub => some (l.sub r)
  | .dmul => some (l.mul r)
  | .ddiv => if r.isZero then none else some (l.div r)
  | .drem => if r.isZero then none else some (l.rem r)
  | _ => none

/-- The left value was pushed first. -/
def binaryValue (op : Opcode) (l r : Value) : Except Fault (Option Value) :=
  match op with
  | .iadd | .isub | .imul | .idiv | .irem | .iand | .ior | .ixor | .ish _ =>
    .ok (some (.int (foldTwo op.foldInt l.int? r.int?)))
  | .ladd | .lsub | .lmul | .ldiv | .lrem | .land | .lor | .lxor =>
    .ok (some (.long (foldTwo op.foldLong l.long? r.long?)))
  | .lsh shift =>
    .ok (some (.long (foldTwo (fun a b => some (shiftLong shift a b)) l.long? r.int?)))
  | .fadd | .fsub | .fmul | .fdiv | .frem =>
    .ok (some (.float (foldTwo op.foldFloat l.float? r.float?)))
  | .dadd | .dsub | .dmul | .ddiv | .drem =>
    .ok (some (.double (foldTwo op.foldDouble l.double? r.double?)))
  | .lcmp | .fcmp _ | .dcmp _ =>
    .ok (some (if l.hasLiteral && r.hasLiteral then .int (some (if l = r then 1 else 0))
      else .int none))
  | .iaload | .baload | .caload | .saload => .ok (some (.int none))
  | .laload => .ok (some (.long none))
  | .faload => .ok (some (.float none))
  | .daload => .ok (some (.double none))
  | .aaload => .ok (some (arrayElement l))
  | .ifICmp _ _ | .ifACmp _ _ | .putField _ => .ok none
  | _ => .error (.internal .notBinary)

/-! ## Three values, or as many as the operands say -/

/-- Stores into an array. -/
def ternaryValue (op : Opcode) (_array _index _value : Value) : Except Fault (Option Value) :=
  match op with
  | .iastore | .lastore | .fastore | .dastore | .aastore | .bastore | .castore | .sastore =>
    .ok none
  | _ => .error (.internal .notTernary)

/-- Nothing is known about what a call gives but its type. -/
def naryValue (op : Opcode) (_values : List Value) : Except Fault (Option Value) :=
  match op with
  | .invoke _ method => .ok (Value.ofResultType method.type.result)
  | .invokeDynamic site => .ok (Value.ofResultType site.type.result)
  | .multiANewArray type _ => .ok (some (.reference type))
  | _ => .error (.internal .notNary)

end SymbolicFrames.Opcode
