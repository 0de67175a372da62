-- The locals and the operand stack at one point of a method, and what can be done to them.
-- A wide local takes its slot and the next; a wide value on the stack is one entry, but the
-- depth of the stack is counted in slots.
import SymbolicFrames.Fault
import SymbolicFrames.Instruction.Basic
import SymbolicFrames.Value.Basic

namespace SymbolicFrames

structure Frame where
  /-- Local variables by slot. -/
  locals : List Value
  /-- Operand stack, its top first. -/
  stack : List Value
  /-- How deep the stack may get, in slots. -/
  maxStack : Nat
deriving DecidableEq

namespace Frame

/-- Nothing written yet and nothing on the stack. -/
def empty (maxLocals maxStack : Nat) : Frame :=
  { locals := List.replicate maxLocals .uninitialized, stack := [], maxStack }

/-- Depth of the stack in slots. -/
def depth (f : Frame) : Nat := total Value.width f.stack

/-! ## Locals -/

def getLocal (f : Frame) (slot : Slot) : Except Fault Value :=
  match f.locals[slot]? with
  | some v => .ok v
  | none => .error (.invalidLocal slot)

/-- A wide local whose second slot is about to be written is no longer there. -/
def dropPairOnto (locals : List Value) (slot : Slot) : List Value :=
  match slot with
  | 0 => locals
  | before + 1 =>
    match locals[before]? with
    | some v => if v.width = 2 then locals.set before .uninitialized else locals
    | none => locals

/-- A wide value leaves its mark in the slot after its own. -/
def markPair (locals : List Value) (slot : Slot) (v : Value) : List Value :=
  if v.width = 2 then locals.set (slot + 1) .continuation else locals

def setLocal (f : Frame) (slot : Slot) (v : Value) : Except Fault Frame :=
  if f.locals.length < slot + v.width then
    .error (.invalidLocal slot)
  else
    .ok { f with locals := (markPair (dropPairOnto f.locals slot) slot v).set slot v }

/-! ## Operand stack -/

def push (f : Frame) (v : Value) : Except Fault Frame :=
  if f.maxStack < f.depth + v.width then
    .error (.stackOverflow f.maxStack)
  else
    .ok { f with stack := v :: f.stack }

/-- Pushes the values from the last to the first, so that the first ends up on top. -/
def pushAll (f : Frame) : List Value → Except Fault Frame
  | [] => .ok f
  | v :: rest => do (← f.pushAll rest).push v

def pushOption (f : Frame) : Option Value → Except Fault Frame
  | none => .ok f
  | some v => f.push v

def pop (f : Frame) : Except Fault (Value × Frame) :=
  match f.stack with
  | [] => .error .emptyStack
  | v :: rest => .ok (v, { f with stack := rest })

/-- The value that many entries beneath the top. -/
def peek? (f : Frame) (entries : Nat) : Option Value := f.stack[entries]?

/-- Drops that many entries. -/
def drop (f : Frame) (entries : Nat) : Except Fault Frame :=
  if f.stack.length < entries then
    .error .emptyStack
  else
    .ok { f with stack := f.stack.drop entries }

/-! ## Starting points -/

/-- The largest number a local slot can have. -/
def lastSlot : Slot := 65535

def placeArgument (f : Frame) (slot : Slot) (v : Value) : Except Fault Frame :=
  if lastSlot < slot then .error (.invalidLocal lastSlot) else f.setLocal slot v

/-- Puts a value of each type into the locals, one after the other. -/
def placeArguments (f : Frame) (slot : Slot) : List FieldType → Except Fault Frame
  | [] => .ok f
  | t :: rest => do
    let placed ← f.placeArgument slot (.ofFieldType t)
    placed.placeArguments (slot + t.width) rest

/-- On entry to a method the locals hold the receiver, if there is one, and the arguments. -/
def entry (receiver : Option ClassName) (type : MethodDescriptor) (maxLocals maxStack : Nat) :
    Except Fault Frame :=
  let start := empty maxLocals maxStack
  match receiver with
  | none => start.placeArguments 0 type.parameters
  | some name => do
    let placed ← start.placeArgument 0 (.object name)
    placed.placeArguments 1 type.parameters

/-- A handler is entered with the exception alone on the stack. -/
def handler (f : Frame) (exception : Value) : Frame :=
  { f with stack := [exception] }

end Frame

end SymbolicFrames
