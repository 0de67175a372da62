-- Types as messages and logs spell them out.
import SymbolicFrames.Descriptor.Basic
import SymbolicFrames.Text.Layout

namespace SymbolicFrames

def BaseType.text : BaseType → String
  | .byte => "Byte"
  | .char => "Char"
  | .double => "Double"
  | .float => "Float"
  | .int => "Int"
  | .long => "Long"
  | .short => "Short"
  | .boolean => "Boolean"

namespace RefType

/-- Which of the three kinds of reference type this is. -/
def kindText : RefType → String
  | .object _ => "Object"
  | .objectArray .. => "ObjectArray"
  | .primitiveArray .. => "PrimitiveArray"

/-- The class or base type under all dimensions. -/
def elementText : RefType → String
  | .object name => name.text
  | .objectArray _ element => element.text
  | .primitiveArray _ element => element.text

/-- Dimensions beyond the first, nothing for an object. -/
def extraDims? : RefType → Option Nat
  | .object _ => none
  | .objectArray extra _ => some extra.toNat
  | .primitiveArray extra _ => some extra.toNat

def text (t : RefType) : String :=
  match t.extraDims? with
  | none => Text.group t.kindText [t.elementText]
  | some extra =>
    Text.group t.kindText
      [Text.record "ArrayType"
        [("additional_dimensions", toString extra), ("element_type", t.elementText)]]

end RefType

def FieldType.text : FieldType → String
  | .base t => Text.group "Base" [t.text]
  | .ref t => Text.group "Ref" [t.text]

def MethodDescriptor.text (d : MethodDescriptor) : String :=
  Text.record "MethodDescriptor"
    [("parameters", Text.list (d.parameters.map FieldType.text)),
      ("return_type", Text.option (d.result.map FieldType.text))]

end SymbolicFrames
