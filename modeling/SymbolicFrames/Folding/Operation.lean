-- The value an operation gives for the values it takes. A literal comes out only if every
-- operand is a literal of the category that the operation takes; otherwise the result is
-- any value of its category, which depends on the operation alone.
import SymbolicFrames.Fault
import SymbolicFrames.Folding.Literal
import SymbolicFrames.Value.Basic

namespace SymbolicFrames

/-- The result of a partial function on two literals, where both are there. -/
def foldTwo {α β γ : Type} (f : α → β → Option γ) (l : Option α) (r : Option β) : Option γ :=
  l.bind fun a => r.bind fun b => f a b

/-! ## Pushes -/

def Constant.value : Constant → Except Fault Value
  | .integer n => .ok (.int (some n))
  | .float x => .ok (.float (some x))
  | .long n => .ok (.long (some n))
  | .double x => .ok (.double (some x))
  | .string text => .ok (.string text)
  | .classOf (.ref _) => .ok (.object .classObject)
  | .classOf (.base type) => .error (.illegalConstant type)
  | .methodType _ => .ok (.object .methodType)
  | .methodHandle _ => .ok (.object .methodHandle)
  | .dynamic _ type => .ok (.ofFieldType type)

def PushOp.value : PushOp → Except Fault Value
  | .null => .ok .null
  | .int offset => .ok (.int (some (BitVec.ofInt 32 ((offset.val : Int) - 1))))
  | .long value => .ok (.long (some (BitVec.ofNat 64 value.val)))
  | .float value => .ok (.float (some (Binary.ofInt .single value.val)))
  | .double value => .ok (.double (some (Binary.ofInt .double value.val)))
  | .byte value => .ok (.int (some (value.signExtend 32)))
  | .short value => .ok (.int (some (value.signExtend 32)))
  | .constant value => value.value
  | .new name => .ok (.object name)
  | .getStatic field => .ok (.ofFieldType field.type)
  | .subroutine _ => .ok .returnAddress

/-! ## One operand -/

def NumberKind.negate (kind : NumberKind) (v : Value) : Value :=
  match kind with
  | .int => .int (v.int?.map fun n => -n)
  | .long => .long (v.long?.map fun n => -n)
  | .float => .float (v.float?.map Binary.neg)
  | .double => .double (v.double?.map Binary.neg)

def Conversion.apply (conversion : Conversion) (v : Value) : Value :=
  match conversion with
  | .intToLong => .long (v.int?.map fun n => n.signExtend 64)
  | .intToFloat => .float (v.int?.map fun n => Binary.ofInt .single n.toInt)
  | .intToDouble => .double (v.int?.map fun n => Binary.ofInt .double n.toInt)
  | .longToInt => .int (v.long?.map fun n => n.setWidth 32)
  | .longToFloat => .float (v.long?.map fun n => Binary.ofInt .single n.toInt)
  | .longToDouble => .double (v.long?.map fun n => Binary.ofInt .double n.toInt)
  | .floatToInt => .int (v.float?.map (Binary.toWord 32))
  | .floatToLong => .long (v.float?.map (Binary.toWord 64))
  | .floatToDouble => .double (v.float?.map (Binary.convert .double))
  | .doubleToInt => .int (v.double?.map (Binary.toWord 32))
  | .doubleToLong => .long (v.double?.map (Binary.toWord 64))
  | .doubleToFloat => .float (v.double?.map (Binary.convert .single))
  | .intToByte => .int (v.int?.map (signedPart 8))
  | .intToChar => .int (v.int?.map (unsignedPart 16))
  | .intToShort => .int (v.int?.map (signedPart 16))

/-- An integer with an amount added to it. -/
def Value.increment (v : Value) (amount : BitVec 16) : Value :=
  .int (v.int?.map fun n => n + amount.signExtend 32)

def newArrayValue (tag : Nat) : Except Fault Value :=
  match BaseType.ofArrayTag? tag with
  | some element => .ok (.reference (FieldType.base element).array)
  | none => .error (.invalidArrayTag tag)

def UnaryOp.result (op : UnaryOp) (v : Value) : Except Fault (Option Value) :=
  match op with
  | .neg kind => .ok (some (kind.negate v))
  | .convert conversion => .ok (some (conversion.apply v))
  | .getField field => .ok (some (.ofFieldType field.type))
  | .arrayLength | .instanceOf _ => .ok (some (.int none))
  | .newArray tag => (newArrayValue tag).map some
  | .newRefArray element => .ok (some (.reference element.array))
  | .checkCast type => .ok (some (.reference type))
  | .putStatic _ | .ifZero .. | .ifNull .. | .tableSwitch .. | .lookupSwitch ..
  | .returnValue _ | .raise | .monitorEnter | .monitorExit => .ok none

/-! ## Two operands -/

def ArithOp.apply (op : ArithOp) (kind : NumberKind) (l r : Value) : Value :=
  match kind with
  | .int => .int (foldTwo op.onWords l.int? r.int?)
  | .long => .long (foldTwo op.onWords l.long? r.long?)
  | .float => .float (foldTwo op.onBinaries l.float? r.float?)
  | .double => .double (foldTwo op.onBinaries l.double? r.double?)

def BitOp.apply (op : BitOp) (kind : WordKind) (l r : Value) : Value :=
  match kind with
  | .int => .int (foldTwo (fun a b => some (op.onWords a b)) l.int? r.int?)
  | .long => .long (foldTwo (fun a b => some (op.onWords a b)) l.long? r.long?)

/-- The count is an `int`, whatever is shifted. -/
def ShiftOp.apply (op : ShiftOp) (kind : WordKind) (l r : Value) : Value :=
  match kind with
  | .int => .int (foldTwo (fun a b => some (op.onWords a b)) l.int? r.int?)
  | .long => .long (foldTwo (fun a b => some (op.onWords a b)) l.long? r.int?)

/-- A comparison only tells equal literals from different ones: one for equal, zero for
different. Any two literals will do, of whatever categories. -/
def compareLiterals (l r : Value) : Value :=
  if l.hasLiteral && r.hasLiteral then
    .int (some (if l = r then 1 else 0))
  else
    .int none

/-- What an array of references holds, as far as its static type tells. -/
def arrayElement (array : Value) : Value :=
  match array with
  | .reference type =>
    match type.element? with
    | some element => .reference element
    | none => .object .object
  | _ => .object .object

def ElementKind.load (kind : ElementKind) (array : Value) : Value :=
  match kind with
  | .int | .byte | .char | .short => .int none
  | .long => .long none
  | .float => .float none
  | .double => .double none
  | .ref => arrayElement array

/-- The left operand was pushed first. -/
def BinaryOp.result (op : BinaryOp) (l r : Value) : Option Value :=
  match op with
  | .arith op kind => some (op.apply kind l r)
  | .bits op kind => some (op.apply kind l r)
  | .shift op kind => some (op.apply kind l r)
  | .compare _ => some (compareLiterals l r)
  | .arrayLoad kind => some (kind.load l)
  | .ifInts .. | .ifRefs .. | .putField _ => none

end SymbolicFrames
