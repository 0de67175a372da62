-- What an analysis is given: a method, and how far and with what assumptions to go.
import SymbolicFrames.AccessFlags
import SymbolicFrames.Frame.Basic
import SymbolicFrames.Text.Layout

namespace SymbolicFrames

/-- A method with its code. -/
structure Method where
  owner : ClassName
  name : MemberName
  type : MethodDescriptor
  flags : AccessFlags
  /-- Number of local slots. -/
  maxLocals : Nat
  /-- How deep the operand stack may get, in slots. -/
  maxStack : Nat
  instructions : List Instruction

namespace Method

/-- The class, the name and the descriptor, which tell the method from every other. -/
def text (m : Method) : String := s!"{m.owner.text}.{m.name.text}{m.type.descriptor}"

def receiver (m : Method) : Option ClassName :=
  if m.flags.hasReceiver then some m.owner else none

/-- The frame before the first instruction. -/
def entryFrame (m : Method) : Except Fault Frame :=
  Frame.entry m.receiver m.type m.maxLocals m.maxStack

end Method

structure Settings where
  /-- How many blocks may be visited. The analysis ends on its own, but it may take long. -/
  visitLimit : Option Nat
  /-- What a handler that catches everything is taken to catch. -/
  defaultException : ClassName
deriving DecidableEq

namespace Settings

def defaultVisitLimit : Nat := 100000

def default : Settings :=
  { visitLimit := some defaultVisitLimit, defaultException := .throwable }

def unbounded : Settings := { default with visitLimit := none }

/-- The limit, if so many visits use it up. -/
def limitReached? (s : Settings) (visits : Nat) : Option Nat :=
  s.visitLimit.filter fun limit => decide (limit ≤ visits)

def text (s : Settings) : String :=
  Text.record "Settings"
    [("max_block_visits", Text.option (s.visitLimit.map toString)),
      ("default_exception_type", s.defaultException.text)]

end Settings

end SymbolicFrames
