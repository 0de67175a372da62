-- Why an instruction cannot be executed on a frame, or two frames not be joined. These are
-- faults of the method's structure; a division by a constant zero is not one of them.
import SymbolicFrames.Descriptor.Text

namespace SymbolicFrames

/-- Faults that no method can cause, only a wrong use of the library. -/
inductive Defect where
  | notPush
  | notCopy
  | notUnary
  | notBinary
  | notTernary
  | notNary
  | noIncrement
  | localCounts
  | unknownBlock
deriving DecidableEq

def Defect.message : Defect → String
  | .notPush => "not a push instruction"
  | .notCopy => "not a copy instruction"
  | .notUnary => "not a unary instruction"
  | .notBinary => "not a binary instruction"
  | .notTernary => "not a ternary instruction"
  | .notNary => "not an n-ary instruction"
  | .noIncrement => "`iinc` produced no value"
  | .localCounts => "frames with different numbers of locals"
  | .unknownBlock => "frame propagated to an unknown block"

inductive Fault where
  | emptyStack
  | stackOverflow (limit : Nat)
  | invalidWidth (width : Nat)
  | invalidLocal (slot : Nat)
  | invalidArrayTag (tag : Nat)
  /-- A base type has no class that could be loaded. -/
  | illegalConstant (type : BaseType)
  | incompatibleHeights (current incoming : Nat)
  | internal (defect : Defect)
deriving DecidableEq

def Fault.message : Fault → String
  | .emptyStack => "pop from an empty operand stack"
  | .stackOverflow limit =>
    String.join ["operand stack exceeds its declared maximum of ", toString limit, " slots"]
  | .invalidWidth width =>
    String.join ["operand of width ", toString width, " where a different width was expected"]
  | .invalidLocal slot => String.join ["local variable ", toString slot, " is out of range"]
  | .invalidArrayTag tag => String.join ["invalid primitive array tag ", toString tag]
  | .illegalConstant type =>
    String.join ["constant cannot be loaded: class literal for primitive type ", type.text]
  | .incompatibleHeights current incoming =>
    String.join
      ["incompatible stack heights ", toString current, " and ", toString incoming,
        " at a join point"]
  | .internal defect => String.join ["internal error: ", defect.message]

end SymbolicFrames
