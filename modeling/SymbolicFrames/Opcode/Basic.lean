-- Instructions one by one, each by its own name, in the order of the instruction set. Nothing
-- here tells how many values an instruction takes: that is told, list by list, by whoever
-- executes it and by whoever computes its value. The grouped form of an instruction and its
-- opcode determine each other.
import SymbolicFrames.Instruction.Basic

namespace SymbolicFrames

inductive Opcode where
  | nop
  | aconstNull
  | iconstM1 | iconst0 | iconst1 | iconst2 | iconst3 | iconst4 | iconst5
  | lconst0 | lconst1
  | fconst0 | fconst1 | fconst2
  | dconst0 | dconst1
  | bipush (value : BitVec 8)
  | sipush (value : BitVec 16)
  | ldc (value : Constant)
  | iload (slot : Slot) | lload (slot : Slot) | fload (slot : Slot) | dload (slot : Slot)
  | aload (slot : Slot)
  | iaload | laload | faload | daload | aaload | baload | caload | saload
  | istore (slot : Slot) | lstore (slot : Slot) | fstore (slot : Slot) | dstore (slot : Slot)
  | astore (slot : Slot)
  | iastore | lastore | fastore | dastore | aastore | bastore | castore | sastore
  | pop | pop2
  | dup | dupX1 | dupX2 | dup2 | dup2X1 | dup2X2
  | swap
  | iadd | ladd | fadd | dadd
  | isub | lsub | fsub | dsub
  | imul | lmul | fmul | dmul
  | idiv | ldiv | fdiv | ddiv
  | irem | lrem | frem | drem
  | ineg | lneg | fneg | dneg
  | ish (op : ShiftOp) | lsh (op : ShiftOp)
  | iand | land | ior | lor | ixor | lxor
  | iinc (slot : Slot) (amount : BitVec 16)
  | i2l | i2f | i2d | l2i | l2f | l2d | f2i | f2l | f2d | d2i | d2l | d2f | i2b | i2c | i2s
  | lcmp | fcmp (onNan : NanOrder) | dcmp (onNan : NanOrder)
  | ifZero (test : OrderTest) (target : Index)
  | ifICmp (test : OrderTest) (target : Index)
  | ifACmp (test : EqualityTest) (target : Index)
  | goto (target : Index)
  | jsr (target : Index)
  | ret (slot : Slot)
  | tableSwitch (otherwise : Index) (low : Int) (targets : List Index)
  | lookupSwitch (otherwise : Index) (targets : List (Int × Index))
  | ireturn | lreturn | freturn | dreturn | areturn | returnVoid
  | getStatic (field : FieldRef) | putStatic (field : FieldRef)
  | getField (field : FieldRef) | putField (field : FieldRef)
  | invoke (kind : CallKind) (method : MethodRef)
  | invokeDynamic (site : CallSite)
  | new (name : ClassName)
  | newArray (tag : Nat)
  | anewArray (element : RefType)
  | arrayLength
  | athrow
  | checkCast (type : RefType)
  | instanceOf (type : RefType)
  | monitorEnter | monitorExit
  | multiANewArray (type : RefType) (dimensions : Nat)
  | ifNull (test : EqualityTest) (target : Index)

/-! ## Grouped forms -/

/-- The instruction as it is grouped with others that take as many values. -/
def Opcode.form : Opcode → Instruction
  | .nop => .nop
  | .aconstNull => .push .null
  | .iconstM1 => .push (.int ⟨0, by decide⟩)
  | .iconst0 => .push (.int ⟨1, by decide⟩)
  | .iconst1 => .push (.int ⟨2, by decide⟩)
  | .iconst2 => .push (.int ⟨3, by decide⟩)
  | .iconst3 => .push (.int ⟨4, by decide⟩)
  | .iconst4 => .push (.int ⟨5, by decide⟩)
  | .iconst5 => .push (.int ⟨6, by decide⟩)
  | .lconst0 => .push (.long ⟨0, by decide⟩)
  | .lconst1 => .push (.long ⟨1, by decide⟩)
  | .fconst0 => .push (.float ⟨0, by decide⟩)
  | .fconst1 => .push (.float ⟨1, by decide⟩)
  | .fconst2 => .push (.float ⟨2, by decide⟩)
  | .dconst0 => .push (.double ⟨0, by decide⟩)
  | .dconst1 => .push (.double ⟨1, by decide⟩)
  | .bipush value => .push (.byte value)
  | .sipush value => .push (.short value)
  | .ldc value => .push (.constant value)
  | .iload slot => .load .int slot
  | .lload slot => .load .long slot
  | .fload slot => .load .float slot
  | .dload slot => .load .double slot
  | .aload slot => .load .ref slot
  | .iaload => .binary (.arrayLoad .int)
  | .laload => .binary (.arrayLoad .long)
  | .faload => .binary (.arrayLoad .float)
  | .daload => .binary (.arrayLoad .double)
  | .aaload => .binary (.arrayLoad .ref)
  | .baload => .binary (.arrayLoad .byte)
  | .caload => .binary (.arrayLoad .char)
  | .saload => .binary (.arrayLoad .short)
  | .istore slot => .store .int slot
  | .lstore slot => .store .long slot
  | .fstore slot => .store .float slot
  | .dstore slot => .store .double slot
  | .astore slot => .store .ref slot
  | .iastore => .arrayStore .int
  | .lastore => .arrayStore .long
  | .fastore => .arrayStore .float
  | .dastore => .arrayStore .double
  | .aastore => .arrayStore .ref
  | .bastore => .arrayStore .byte
  | .castore => .arrayStore .char
  | .sastore => .arrayStore .short
  | .pop => .shuffle .pop
  | .pop2 => .shuffle .pop2
  | .dup => .shuffle .dup
  | .dupX1 => .shuffle .dupX1
  | .dupX2 => .shuffle .dupX2
  | .dup2 => .shuffle .dup2
  | .dup2X1 => .shuffle .dup2X1
  | .dup2X2 => .shuffle .dup2X2
  | .swap => .shuffle .swap
  | .iadd => .binary (.arith .add .int)
  | .ladd => .binary (.arith .add .long)
  | .fadd => .binary (.arith .add .float)
  | .dadd => .binary (.arith .add .double)
  | .isub => .binary (.arith .sub .int)
  | .lsub => .binary (.arith .sub .long)
  | .fsub => .binary (.arith .sub .float)
  | .dsub => .binary (.arith .sub .double)
  | .imul => .binary (.arith .mul .int)
  | .lmul => .binary (.arith .mul .long)
  | .fmul => .binary (.arith .mul .float)
  | .dmul => .binary (.arith .mul .double)
  | .idiv => .binary (.arith .div .int)
  | .ldiv => .binary (.arith .div .long)
  | .fdiv => .binary (.arith .div .float)
  | .ddiv => .binary (.arith .div .double)
  | .irem => .binary (.arith .rem .int)
  | .lrem => .binary (.arith .rem .long)
  | .frem => .binary (.arith .rem .float)
  | .drem => .binary (.arith .rem .double)
  | .ineg => .unary (.neg .int)
  | .lneg => .unary (.neg .long)
  | .fneg => .unary (.neg .float)
  | .dneg => .unary (.neg .double)
  | .ish op => .binary (.shift op .int)
  | .lsh op => .binary (.shift op .long)
  | .iand => .binary (.bits .and .int)
  | .land => .binary (.bits .and .long)
  | .ior => .binary (.bits .or .int)
  | .lor => .binary (.bits .or .long)
  | .ixor => .binary (.bits .xor .int)
  | .lxor => .binary (.bits .xor .long)
  | .iinc slot amount => .increment slot amount
  | .i2l => .unary (.convert .intToLong)
  | .i2f => .unary (.convert .intToFloat)
  | .i2d => .unary (.convert .intToDouble)
  | .l2i => .unary (.convert .longToInt)
  | .l2f => .unary (.convert .longToFloat)
  | .l2d => .unary (.convert .longToDouble)
  | .f2i => .unary (.convert .floatToInt)
  | .f2l => .unary (.convert .floatToLong)
  | .f2d => .unary (.convert .floatToDouble)
  | .d2i => .unary (.convert .doubleToInt)
  | .d2l => .unary (.convert .doubleToLong)
  | .d2f => .unary (.convert .doubleToFloat)
  | .i2b => .unary (.convert .intToByte)
  | .i2c => .unary (.convert .intToChar)
  | .i2s => .unary (.convert .intToShort)
  | .lcmp => .binary (.compare .long)
  | .fcmp onNan => .binary (.compare (.float onNan))
  | .dcmp onNan => .binary (.compare (.double onNan))
  | .ifZero test target => .unary (.ifZero test target)
  | .ifICmp test target => .binary (.ifInts test target)
  | .ifACmp test target => .binary (.ifRefs test target)
  | .goto target => .goto target
  | .jsr target => .push (.subroutine target)
  | .ret slot => .ret slot
  | .tableSwitch otherwise low targets => .unary (.tableSwitch otherwise low targets)
  | .lookupSwitch otherwise targets => .unary (.lookupSwitch otherwise targets)
  | .ireturn => .unary (.returnValue .int)
  | .lreturn => .unary (.returnValue .long)
  | .freturn => .unary (.returnValue .float)
  | .dreturn => .unary (.returnValue .double)
  | .areturn => .unary (.returnValue .ref)
  | .returnVoid => .returnVoid
  | .getStatic field => .push (.getStatic field)
  | .putStatic field => .unary (.putStatic field)
  | .getField field => .unary (.getField field)
  | .putField field => .binary (.putField field)
  | .invoke kind method => .invoke kind method
  | .invokeDynamic site => .invokeDynamic site
  | .new name => .push (.new name)
  | .newArray tag => .unary (.newArray tag)
  | .anewArray element => .unary (.newRefArray element)
  | .arrayLength => .unary .arrayLength
  | .athrow => .unary .raise
  | .checkCast type => .unary (.checkCast type)
  | .instanceOf type => .unary (.instanceOf type)
  | .monitorEnter => .unary .monitorEnter
  | .monitorExit => .unary .monitorExit
  | .multiANewArray type dimensions => .newMultiArray type dimensions
  | .ifNull test target => .unary (.ifNull test target)

/-! ## Opcodes of grouped forms -/

def PushOp.opcode : PushOp → Opcode
  | .null => .aconstNull
  | .int 0 => .iconstM1
  | .int 1 => .iconst0
  | .int 2 => .iconst1
  | .int 3 => .iconst2
  | .int 4 => .iconst3
  | .int 5 => .iconst4
  | .int 6 => .iconst5
  | .long 0 => .lconst0
  | .long 1 => .lconst1
  | .float 0 => .fconst0
  | .float 1 => .fconst1
  | .float 2 => .fconst2
  | .double 0 => .dconst0
  | .double 1 => .dconst1
  | .byte value => .bipush value
  | .short value => .sipush value
  | .constant value => .ldc value
  | .new name => .new name
  | .getStatic field => .getStatic field
  | .subroutine target => .jsr target

def Conversion.opcode : Conversion → Opcode
  | .intToLong => .i2l
  | .intToFloat => .i2f
  | .intToDouble => .i2d
  | .longToInt => .l2i
  | .longToFloat => .l2f
  | .longToDouble => .l2d
  | .floatToInt => .f2i
  | .floatToLong => .f2l
  | .floatToDouble => .f2d
  | .doubleToInt => .d2i
  | .doubleToLong => .d2l
  | .doubleToFloat => .d2f
  | .intToByte => .i2b
  | .intToChar => .i2c
  | .intToShort => .i2s

def UnaryOp.opcode : UnaryOp → Opcode
  | .neg .int => .ineg
  | .neg .long => .lneg
  | .neg .float => .fneg
  | .neg .double => .dneg
  | .convert conversion => conversion.opcode
  | .getField field => .getField field
  | .putStatic field => .putStatic field
  | .arrayLength => .arrayLength
  | .newArray tag => .newArray tag
  | .newRefArray element => .anewArray element
  | .checkCast type => .checkCast type
  | .instanceOf type => .instanceOf type
  | .ifZero test target => .ifZero test target
  | .ifNull test target => .ifNull test target
  | .tableSwitch otherwise low targets => .tableSwitch otherwise low targets
  | .lookupSwitch otherwise targets => .lookupSwitch otherwise targets
  | .returnValue .int => .ireturn
  | .returnValue .long => .lreturn
  | .returnValue .float => .freturn
  | .returnValue .double => .dreturn
  | .returnValue .ref => .areturn
  | .raise => .athrow
  | .monitorEnter => .monitorEnter
  | .monitorExit => .monitorExit

def ArithOp.opcode : ArithOp → NumberKind → Opcode
  | .add, .int => .iadd
  | .add, .long => .ladd
  | .add, .float => .fadd
  | .add, .double => .dadd
  | .sub, .int => .isub
  | .sub, .long => .lsub
  | .sub, .float => .fsub
  | .sub, .double => .dsub
  | .mul, .int => .imul
  | .mul, .long => .lmul
  | .mul, .float => .fmul
  | .mul, .double => .dmul
  | .div, .int => .idiv
  | .div, .long => .ldiv
  | .div, .float => .fdiv
  | .div, .double => .ddiv
  | .rem, .int => .irem
  | .rem, .long => .lrem
  | .rem, .float => .frem
  | .rem, .double => .drem

def BinaryOp.opcode : BinaryOp → Opcode
  | .arith op kind => op.opcode kind
  | .bits .and .int => .iand
  | .bits .and .long => .land
  | .bits .or .int => .ior
  | .bits .or .long => .lor
  | .bits .xor .int => .ixor
  | .bits .xor .long => .lxor
  | .shift op .int => .ish op
  | .shift op .long => .lsh op
  | .compare .long => .lcmp
  | .compare (.float onNan) => .fcmp onNan
  | .compare (.double onNan) => .dcmp onNan
  | .arrayLoad .int => .iaload
  | .arrayLoad .long => .laload
  | .arrayLoad .float => .faload
  | .arrayLoad .double => .daload
  | .arrayLoad .ref => .aaload
  | .arrayLoad .byte => .baload
  | .arrayLoad .char => .caload
  | .arrayLoad .short => .saload
  | .ifInts test target => .ifICmp test target
  | .ifRefs test target => .ifACmp test target
  | .putField field => .putField field

def Shuffle.opcode : Shuffle → Opcode
  | .pop => .pop
  | .pop2 => .pop2
  | .dup => .dup
  | .dupX1 => .dupX1
  | .dupX2 => .dupX2
  | .dup2 => .dup2
  | .dup2X1 => .dup2X1
  | .dup2X2 => .dup2X2
  | .swap => .swap

def Instruction.opcode : Instruction → Opcode
  | .nop => .nop
  | .goto target => .goto target
  | .ret slot => .ret slot
  | .returnVoid => .returnVoid
  | .push op => op.opcode
  | .load .int slot => .iload slot
  | .load .long slot => .lload slot
  | .load .float slot => .fload slot
  | .load .double slot => .dload slot
  | .load .ref slot => .aload slot
  | .store .int slot => .istore slot
  | .store .long slot => .lstore slot
  | .store .float slot => .fstore slot
  | .store .double slot => .dstore slot
  | .store .ref slot => .astore slot
  | .increment slot amount => .iinc slot amount
  | .unary op => op.opcode
  | .binary op => op.opcode
  | .arrayStore .int => .iastore
  | .arrayStore .long => .lastore
  | .arrayStore .float => .fastore
  | .arrayStore .double => .dastore
  | .arrayStore .ref => .aastore
  | .arrayStore .byte => .bastore
  | .arrayStore .char => .castore
  | .arrayStore .short => .sastore
  | .shuffle op => op.opcode
  | .invoke kind method => .invoke kind method
  | .invokeDynamic site => .invokeDynamic site
  | .newMultiArray type dimensions => .multiANewArray type dimensions

end SymbolicFrames
