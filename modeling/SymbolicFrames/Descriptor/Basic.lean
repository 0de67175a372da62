-- Types as descriptors name them, and how each is written. Reading is in
-- `Descriptor.Reader`; a written descriptor reads back as the type it came from, unless the
-- dimensions of an array are too many to be counted.
import SymbolicFrames.Name

namespace SymbolicFrames

/-! ## Base types -/

inductive BaseType where
  | byte | char | double | float | int | long | short | boolean
deriving DecidableEq

namespace BaseType

def letter : BaseType → Char
  | .byte => 'B'
  | .char => 'C'
  | .double => 'D'
  | .float => 'F'
  | .int => 'I'
  | .long => 'J'
  | .short => 'S'
  | .boolean => 'Z'

def ofLetter? : Char → Option BaseType
  | 'B' => some .byte
  | 'C' => some .char
  | 'D' => some .double
  | 'F' => some .float
  | 'I' => some .int
  | 'J' => some .long
  | 'S' => some .short
  | 'Z' => some .boolean
  | _ => none

/-- Element type of an array of numbers, from the tag that the creating instruction carries. -/
def ofArrayTag? : Nat → Option BaseType
  | 4 => some .boolean
  | 5 => some .char
  | 6 => some .float
  | 7 => some .double
  | 8 => some .byte
  | 9 => some .short
  | 10 => some .int
  | 11 => some .long
  | _ => none

/-- Number of slots a value of the type takes. -/
def width : BaseType → Nat
  | .double | .long => 2
  | _ => 1

def encode (t : BaseType) : List Char := [t.letter]

def descriptor (t : BaseType) : String := String.ofList t.encode

end BaseType

/-! ## Classes and references -/

def ClassName.encode (c : ClassName) : List Char :=
  'L' :: (c.text.toList ++ [';'])

def ClassName.descriptor (c : ClassName) : String := String.ofList c.encode

/-- Dimensions of an array beyond the first, as the machine word that counts them. -/
abbrev ExtraDims := BitVec 64

/-- All dimensions of an array. The first is added to the word without a look at its size, so
that the largest count comes to no dimension at all. -/
def ExtraDims.all (extra : ExtraDims) : Nat := (extra + 1).toNat

/-- Type of a reference. An array has one dimension more than its count says. -/
inductive RefType where
  | object (name : ClassName)
  | objectArray (extraDims : ExtraDims) (element : ClassName)
  | primitiveArray (extraDims : ExtraDims) (element : BaseType)
deriving DecidableEq

/-- Type of a field, a parameter or a result. -/
inductive FieldType where
  | base (type : BaseType)
  | ref (type : RefType)
deriving DecidableEq

namespace RefType

/-- The brackets of an array, one for each of its dimensions. -/
def brackets (extraDims : ExtraDims) : List Char :=
  List.replicate extraDims.all '['

def encode : RefType → List Char
  | .object name => name.encode
  | .objectArray extra element => brackets extra ++ element.encode
  | .primitiveArray extra element => brackets extra ++ element.encode

def descriptor (t : RefType) : String := String.ofList t.encode

/-- Number of array dimensions, zero for an object. -/
def dimensions : RefType → Nat
  | .object _ => 0
  | .objectArray extra _ => extra.all
  | .primitiveArray extra _ => extra.all

/-- The type of the elements, if the type is an array of references. -/
def element? : RefType → Option RefType
  | .object _ => none
  | .objectArray extra element =>
    some (if extra = 0 then .object element else .objectArray (extra - 1) element)
  | .primitiveArray extra element =>
    if extra = 0 then none else some (.primitiveArray (extra - 1) element)

end RefType

namespace FieldType

def encode : FieldType → List Char
  | .base t => t.encode
  | .ref t => t.encode

def descriptor (t : FieldType) : String := String.ofList t.encode

def width : FieldType → Nat
  | .base t => t.width
  | .ref _ => 1

def object (name : ClassName) : FieldType := .ref (.object name)

/-- The type of an array whose elements have this type. The count of dimensions goes up
without a look at its size. -/
def array : FieldType → RefType
  | .base t => .primitiveArray 0 t
  | .ref (.object name) => .objectArray 0 name
  | .ref (.objectArray extra element) => .objectArray (extra + 1) element
  | .ref (.primitiveArray extra element) => .primitiveArray (extra + 1) element

end FieldType

def RefType.array (t : RefType) : RefType := (FieldType.ref t).array

/-! ## Totals -/

/-- What the members of a list come to together. -/
def total {α : Type} (measure : α → Nat) : List α → Nat
  | [] => 0
  | x :: rest => measure x + total measure rest

@[simp]
theorem total_nil {α : Type} (measure : α → Nat) : total measure [] = 0 := rfl

@[simp]
theorem total_cons {α : Type} (measure : α → Nat) (x : α) (rest : List α) :
    total measure (x :: rest) = measure x + total measure rest := rfl

/-! ## Methods -/

structure MethodDescriptor where
  parameters : List FieldType
  /-- Type of the result, nothing for a method that returns none. -/
  result : Option FieldType
deriving DecidableEq

namespace MethodDescriptor

def encodeResult : Option FieldType → List Char
  | none => ['V']
  | some t => t.encode

def encode (d : MethodDescriptor) : List Char :=
  '(' :: (d.parameters.flatMap FieldType.encode ++ ')' :: encodeResult d.result)

def descriptor (d : MethodDescriptor) : String := String.ofList d.encode

/-- Number of local slots that the arguments take, with one for the receiver if there is one. -/
def parameterWidth (d : MethodDescriptor) (hasReceiver : Bool) : Nat :=
  (if hasReceiver then 1 else 0) + total FieldType.width d.parameters

end MethodDescriptor

end SymbolicFrames
