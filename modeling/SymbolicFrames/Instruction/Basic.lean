-- The instructions of a method, with every reference to the constant pool resolved and
-- every jump pointing at an instruction by its index. They are grouped by what they do to
-- the operand stack: push a value, take one or two and give at most one back, move values
-- around, or make a call.
import SymbolicFrames.Descriptor.Basic
import SymbolicFrames.Ieee.Basic

namespace SymbolicFrames

/-- Position of an instruction in its method. -/
abbrev Index := Nat

/-- Number of a local variable slot. -/
abbrev Slot := Nat

/-! ## Kinds of operands -/

/-- The four kinds of numbers there is arithmetic on. -/
inductive NumberKind where
  | int | long | float | double
deriving DecidableEq

/-- The two kinds of numbers there are bit operations on. -/
inductive WordKind where
  | int | long
deriving DecidableEq

/-- What a load, a store or a return says it moves. -/
inductive MoveKind where
  | int | long | float | double | ref
deriving DecidableEq

/-- What the elements of an array are, as far as loads and stores tell them apart. -/
inductive ElementKind where
  | int | long | float | double | ref | byte | char | short
deriving DecidableEq

/-! ## Kinds of operations -/

inductive ArithOp where
  | add | sub | mul | div | rem
deriving DecidableEq

inductive BitOp where
  | and | or | xor
deriving DecidableEq

inductive ShiftOp where
  | left | logicalRight | arithmeticRight
deriving DecidableEq

inductive Conversion where
  | intToLong | intToFloat | intToDouble
  | longToInt | longToFloat | longToDouble
  | floatToInt | floatToLong | floatToDouble
  | doubleToInt | doubleToLong | doubleToFloat
  | intToByte | intToChar | intToShort
deriving DecidableEq

/-- Which way a comparison with something that is not a number goes. -/
inductive NanOrder where
  | less | greater
deriving DecidableEq

inductive Comparison where
  | long
  | float (onNan : NanOrder)
  | double (onNan : NanOrder)
deriving DecidableEq

/-- Tests that a branch on an integer can make. -/
inductive OrderTest where
  | eq | ge | gt | le | lt | ne
deriving DecidableEq

/-- Tests that a branch on a reference can make. -/
inductive EqualityTest where
  | eq | ne
deriving DecidableEq

/-- How the method to call is found. -/
inductive CallKind where
  | virtual | special | static | interface
deriving DecidableEq

/-- Whether the object the method is called on lies beneath its arguments. -/
def CallKind.hasReceiver (kind : CallKind) : Bool := kind != .static

/-! ## References and constants -/

structure FieldRef where
  owner : ClassName
  name : MemberName
  type : FieldType
deriving DecidableEq

structure MethodRef where
  owner : ClassName
  name : MemberName
  type : MethodDescriptor
deriving DecidableEq

/-- A call whose method is found when it is first made. It has no receiver. -/
structure CallSite where
  name : MemberName
  type : MethodDescriptor
deriving DecidableEq

/-- Constants that an instruction can load. -/
inductive Constant where
  | integer (value : BitVec 32)
  | float (value : Binary32)
  | long (value : BitVec 64)
  | double (value : Binary64)
  | string (text : String)
  /-- The class of a type. Only reference types have one that can be loaded. -/
  | classOf (type : FieldType)
  | methodType (type : MethodDescriptor)
  | methodHandle (method : MethodRef)
  /-- A constant that is computed when it is first loaded. -/
  | dynamic (name : MemberName) (type : FieldType)
deriving DecidableEq

/-- Floating-point constants are compared as numbers, everything else exactly. -/
def Constant.equals : Constant → Constant → Bool
  | .float x, .float y => x.equals y
  | .double x, .double y => x.equals y
  | c, d => c == d

/-! ## Instructions by their effect on the operand stack -/

/-- Takes nothing and gives one value. -/
inductive PushOp where
  | null
  /-- The integers from minus one up. -/
  | int (offset : Fin 7)
  | long (value : Fin 2)
  | float (value : Fin 3)
  | double (value : Fin 2)
  | byte (value : BitVec 8)
  | short (value : BitVec 16)
  | constant (value : Constant)
  | new (name : ClassName)
  | getStatic (field : FieldRef)
  /-- Calls a subroutine of the same method: the value is where to come back to. -/
  | subroutine (target : Index)
deriving DecidableEq

/-- Takes one value and gives at most one. -/
inductive UnaryOp where
  | neg (kind : NumberKind)
  | convert (conversion : Conversion)
  | getField (field : FieldRef)
  | putStatic (field : FieldRef)
  | arrayLength
  | newArray (tag : Nat)
  | newRefArray (element : RefType)
  | checkCast (type : RefType)
  | instanceOf (type : RefType)
  | ifZero (test : OrderTest) (target : Index)
  | ifNull (test : EqualityTest) (target : Index)
  | tableSwitch (otherwise : Index) (low : Int) (targets : List Index)
  | lookupSwitch (otherwise : Index) (targets : List (Int × Index))
  | returnValue (kind : MoveKind)
  | raise
  | monitorEnter
  | monitorExit
deriving DecidableEq

/-- Takes two values and gives at most one. -/
inductive BinaryOp where
  | arith (op : ArithOp) (kind : NumberKind)
  | bits (op : BitOp) (kind : WordKind)
  | shift (op : ShiftOp) (kind : WordKind)
  | compare (comparison : Comparison)
  | arrayLoad (kind : ElementKind)
  | ifInts (test : OrderTest) (target : Index)
  | ifRefs (test : EqualityTest) (target : Index)
  | putField (field : FieldRef)
deriving DecidableEq

/-- Drops, copies or swaps what lies on top of the operand stack. -/
inductive Shuffle where
  | pop | pop2 | dup | dupX1 | dupX2 | dup2 | dup2X1 | dup2X2 | swap
deriving DecidableEq

inductive Instruction where
  | nop
  | goto (target : Index)
  /-- Comes back from a subroutine, to where the local says. -/
  | ret (slot : Slot)
  | returnVoid
  | push (op : PushOp)
  | load (kind : MoveKind) (slot : Slot)
  | store (kind : MoveKind) (slot : Slot)
  | increment (slot : Slot) (amount : BitVec 16)
  | unary (op : UnaryOp)
  | binary (op : BinaryOp)
  | arrayStore (kind : ElementKind)
  | shuffle (op : Shuffle)
  | invoke (kind : CallKind) (method : MethodRef)
  | invokeDynamic (site : CallSite)
  | newMultiArray (type : RefType) (dimensions : Nat)
deriving DecidableEq

/-- Two instructions are the same if their operands are, with constants compared as by
`Constant.equals`. One that loads what is not a number differs even from itself. -/
def Instruction.equals : Instruction → Instruction → Bool
  | .push (.constant c), .push (.constant d) => c.equals d
  | i, j => i == j

end SymbolicFrames
