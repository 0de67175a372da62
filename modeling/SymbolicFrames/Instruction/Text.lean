-- Instructions as messages and logs show them, and the names of those without operands.
import SymbolicFrames.Descriptor.Text
import SymbolicFrames.Ieee.Shortest
import SymbolicFrames.Instruction.Basic
import SymbolicFrames.Text.Quoted

namespace SymbolicFrames

/-- Written as in `#7`. -/
def indexText (i : Index) : String := s!"#{i}"

/-! ## Kinds -/

def NumberKind.letter : NumberKind → String
  | .int => "I"
  | .long => "L"
  | .float => "F"
  | .double => "D"

def WordKind.letter : WordKind → String
  | .int => "I"
  | .long => "L"

def MoveKind.letter : MoveKind → String
  | .int => "I"
  | .long => "L"
  | .float => "F"
  | .double => "D"
  | .ref => "A"

def ElementKind.letter : ElementKind → String
  | .int => "I"
  | .long => "L"
  | .float => "F"
  | .double => "D"
  | .ref => "A"
  | .byte => "B"
  | .char => "C"
  | .short => "S"

def ArithOp.text : ArithOp → String
  | .add => "Add"
  | .sub => "Sub"
  | .mul => "Mul"
  | .div => "Div"
  | .rem => "Rem"

def BitOp.text : BitOp → String
  | .and => "And"
  | .or => "Or"
  | .xor => "Xor"

def ShiftOp.text : ShiftOp → String
  | .left => "Left"
  | .logicalRight => "LogicalRight"
  | .arithmeticRight => "ArithmeticRight"

def Conversion.text : Conversion → String
  | .intToLong => "I2L"
  | .intToFloat => "I2F"
  | .intToDouble => "I2D"
  | .longToInt => "L2I"
  | .longToFloat => "L2F"
  | .longToDouble => "L2D"
  | .floatToInt => "F2I"
  | .floatToLong => "F2L"
  | .floatToDouble => "F2D"
  | .doubleToInt => "D2I"
  | .doubleToLong => "D2L"
  | .doubleToFloat => "D2F"
  | .intToByte => "I2B"
  | .intToChar => "I2C"
  | .intToShort => "I2S"

def NanOrder.text : NanOrder → String
  | .less => "L"
  | .greater => "G"

def Comparison.text : Comparison → String
  | .long => "LCmp"
  | .float onNan => Text.group "FCmp" [onNan.text]
  | .double onNan => Text.group "DCmp" [onNan.text]

def OrderTest.text : OrderTest → String
  | .eq => "EQ"
  | .ge => "GE"
  | .gt => "GT"
  | .le => "LE"
  | .lt => "LT"
  | .ne => "NE"

def EqualityTest.text : EqualityTest → String
  | .eq => "EQ"
  | .ne => "NE"

def CallKind.text : CallKind → String
  | .virtual => "Virtual"
  | .special => "Special"
  | .static => "Static"
  | .interface => "Interface"

/-! ## References and constants -/

def FieldRef.text (r : FieldRef) : String :=
  Text.record "FieldRef"
    [("class", r.owner.text), ("name", r.name.text), ("descriptor", r.type.text)]

def MethodRef.text (r : MethodRef) : String :=
  Text.record "MethodRef"
    [("class", r.owner.text), ("name", r.name.text), ("descriptor", r.type.text)]

def CallSite.text (s : CallSite) : String :=
  Text.record "InvokeDynamicRef" [("name", s.name.text), ("descriptor", s.type.text)]

def Constant.text : Constant → String
  | .integer n => Text.group "Integer" [toString n.toInt]
  | .float x => Text.group "Float" [x.text]
  | .long n => Text.group "Long" [toString n.toInt]
  | .double x => Text.group "Double" [x.text]
  | .string s => Text.group "String" [Text.quoted s]
  | .classOf t => Text.group "Class" [t.text]
  | .methodType t => Text.group "MethodType" [t.text]
  | .methodHandle m => Text.group "MethodHandle" [m.text]
  | .dynamic name t => Text.record "Dynamic" [("name", name.text), ("descriptor", t.text)]

/-! ## Instructions -/

def PushOp.text : PushOp → String
  | .null => "AConstNull"
  | .int offset => if offset = 0 then "IConstM1" else s!"IConst{offset.val - 1}"
  | .long value => s!"LConst{value.val}"
  | .float value => s!"FConst{value.val}"
  | .double value => s!"DConst{value.val}"
  | .byte value => Text.group "BiPush" [toString value.toInt]
  | .short value => Text.group "SiPush" [toString value.toInt]
  | .constant value => Text.group "Ldc" [value.text]
  | .new name => Text.group "New" [name.text]
  | .getStatic field => Text.group "GetStatic" [field.text]
  | .subroutine target => Text.group "Jsr" [indexText target]

def UnaryOp.text : UnaryOp → String
  | .neg kind => kind.letter ++ "Neg"
  | .convert conversion => conversion.text
  | .getField field => Text.group "GetField" [field.text]
  | .putStatic field => Text.group "PutStatic" [field.text]
  | .arrayLength => "ArrayLength"
  | .newArray tag => Text.group "NewArray" [toString tag]
  | .newRefArray element => Text.group "ANewArray" [element.text]
  | .checkCast type => Text.group "CheckCast" [type.text]
  | .instanceOf type => Text.group "InstanceOf" [type.text]
  | .ifZero test target => Text.group "If" [test.text, indexText target]
  | .ifNull test target => Text.group "IfNull" [test.text, indexText target]
  | .tableSwitch otherwise low targets =>
    Text.record "TableSwitch"
      [("default", indexText otherwise), ("low", toString low),
        ("targets", Text.list (targets.map indexText))]
  | .lookupSwitch otherwise targets =>
    Text.record "LookupSwitch"
      [("default", indexText otherwise),
        ("targets",
          Text.list (targets.map fun (key, target) =>
            Text.group "" [toString key, indexText target]))]
  | .returnValue kind => kind.letter ++ "Return"
  | .raise => "AThrow"
  | .monitorEnter => "MonitorEnter"
  | .monitorExit => "MonitorExit"

def BinaryOp.text : BinaryOp → String
  | .arith op kind => kind.letter ++ op.text
  | .bits op kind => kind.letter ++ op.text
  | .shift op kind => Text.group (kind.letter ++ "Sh") [op.text]
  | .compare comparison => comparison.text
  | .arrayLoad kind => kind.letter ++ "ALoad"
  | .ifInts test target => Text.group "IfICmp" [test.text, indexText target]
  | .ifRefs test target => Text.group "IfACmp" [test.text, indexText target]
  | .putField field => Text.group "PutField" [field.text]

def Shuffle.text : Shuffle → String
  | .pop => "Pop"
  | .pop2 => "Pop2"
  | .dup => "Dup"
  | .dupX1 => "DupX1"
  | .dupX2 => "DupX2"
  | .dup2 => "Dup2"
  | .dup2X1 => "Dup2X1"
  | .dup2X2 => "Dup2X2"
  | .swap => "Swap"

namespace Instruction

def text : Instruction → String
  | .nop => "Nop"
  | .goto target => Text.group "Goto" [indexText target]
  | .ret slot => Text.group "Ret" [toString slot]
  | .returnVoid => "Return"
  | .push op => op.text
  | .load kind slot => Text.group (kind.letter ++ "Load") [toString slot]
  | .store kind slot => Text.group (kind.letter ++ "Store") [toString slot]
  | .increment slot amount => Text.group "IInc" [toString slot, toString amount.toInt]
  | .unary op => op.text
  | .binary op => op.text
  | .arrayStore kind => kind.letter ++ "AStore"
  | .shuffle op => op.text
  | .invoke kind method => Text.group "Invoke" [kind.text, method.text]
  | .invokeDynamic site => Text.group "InvokeDynamic" [site.text]
  | .newMultiArray type dimensions =>
    Text.group "MultiANewArray" [type.text, toString dimensions]

/-! ## Instructions without operands -/

def numberKinds : List NumberKind := [.int, .long, .float, .double]

def wordKinds : List WordKind := [.int, .long]

def moveKinds : List MoveKind := [.int, .long, .float, .double, .ref]

def elementKinds : List ElementKind := [.int, .long, .float, .double, .ref, .byte, .char, .short]

def arithOps : List ArithOp := [.add, .sub, .mul, .div, .rem]

def bitOps : List BitOp := [.and, .or, .xor]

def conversions : List Conversion :=
  [.intToLong, .intToFloat, .intToDouble, .longToInt, .longToFloat, .longToDouble,
    .floatToInt, .floatToLong, .floatToDouble, .doubleToInt, .doubleToLong, .doubleToFloat,
    .intToByte, .intToChar, .intToShort]

def shuffles : List Shuffle :=
  [.pop, .pop2, .dup, .dupX1, .dupX2, .dup2, .dup2X1, .dup2X2, .swap]

/-- Pushes of the small numbers that have an instruction each. -/
def smallNumbers : List PushOp :=
  (List.finRange 7).map PushOp.int ++ (List.finRange 2).map PushOp.long
    ++ (List.finRange 3).map PushOp.float ++ (List.finRange 2).map PushOp.double

def plainUnaryOps : List UnaryOp :=
  numberKinds.map UnaryOp.neg ++ conversions.map UnaryOp.convert
    ++ moveKinds.map UnaryOp.returnValue
    ++ [.arrayLength, .raise, .monitorEnter, .monitorExit]

def plainBinaryOps : List BinaryOp :=
  arithOps.flatMap (fun op => numberKinds.map (BinaryOp.arith op))
    ++ bitOps.flatMap (fun op => wordKinds.map (BinaryOp.bits op))
    ++ elementKinds.map BinaryOp.arrayLoad ++ [.compare .long]

/-- Every instruction whose name says all about it. -/
def withoutOperands : List Instruction :=
  [.nop, .returnVoid, .push .null] ++ smallNumbers.map Instruction.push
    ++ plainUnaryOps.map Instruction.unary ++ plainBinaryOps.map Instruction.binary
    ++ elementKinds.map Instruction.arrayStore ++ shuffles.map Instruction.shuffle

/-- The instruction without operands that has this name. -/
def ofName? (name : String) : Option Instruction :=
  withoutOperands.find? (·.text == name)

end Instruction

end SymbolicFrames
