-- Reading descriptors. A reader takes a descriptor off the front of a text and gives back
-- what it found with the characters it has not taken. A character that a reader only looks
-- at stays in the text; one that it takes is gone, also when it is the wrong one.
import SymbolicFrames.Descriptor.Basic

namespace SymbolicFrames

/-! ## Errors -/

/-- What a reader was looking for. -/
inductive Expectation where
  | baseType
  | objectStart
  | objectType
  | classNameEnd
  | referenceType
  | fieldType
  | methodStart
  | methodDescriptor
  | parametersEnd
  | endOfDescriptor
deriving DecidableEq

def Expectation.text : Expectation → String
  | .baseType => "base type"
  | .objectStart => "'L' to start an object type"
  | .objectType => "object type"
  | .classNameEnd => "';' after class name"
  | .referenceType => "reference type"
  | .fieldType => "field type"
  | .methodStart => "'(' to start a method descriptor"
  | .methodDescriptor => "method descriptor"
  | .parametersEnd => "')' after parameters"
  | .endOfDescriptor => "end of descriptor"

inductive DescriptorError where
  | unexpectedEnd (expected : Expectation)
  | unexpected (found : Char) (expected : Expectation)
  | invalidClassName (error : NameError)
deriving DecidableEq

def DescriptorError.message : DescriptorError → String
  | .unexpectedEnd expected => String.join ["unexpected end of descriptor: ", expected.text]
  | .unexpected found expected =>
    String.join ["unexpected character '", found.toString, "' in descriptor: ", expected.text]
  | .invalidClassName error => String.join ["invalid class name in descriptor: ", error.message]

/-! ## Readings -/

/-- What a reader found, and the text it left. -/
structure Reading (α : Type) where
  result : Except DescriptorError α
  rest : List Char

namespace Reading

def ok {α : Type} (value : α) (rest : List Char) : Reading α :=
  ⟨.ok value, rest⟩

def fail {α : Type} (error : DescriptorError) (rest : List Char) : Reading α :=
  ⟨.error error, rest⟩

def map {α β : Type} (f : α → β) (r : Reading α) : Reading β :=
  ⟨r.result.map f, r.rest⟩

/-- A reading counts for a whole text only if it leaves nothing. -/
def whole {α : Type} (r : Reading α) : Except DescriptorError α :=
  match r.result, r.rest with
  | .error e, _ => .error e
  | .ok value, [] => .ok value
  | .ok _, c :: _ => .error (.unexpected c .endOfDescriptor)

end Reading

/-! ## Base types and classes -/

def BaseType.read : List Char → Reading BaseType
  | [] => .fail (.unexpectedEnd .baseType) []
  | c :: rest =>
    match BaseType.ofLetter? c with
    | some t => .ok t rest
    | none => .fail (.unexpected c .baseType) rest

/-- The class name up to the next semicolon. -/
def ClassName.readName (source : List Char) : Reading ClassName :=
  match source.dropWhile (· != ';') with
  | [] => .fail (.unexpectedEnd .classNameEnd) []
  | _ :: rest =>
    match ClassName.ofString (String.ofList (source.takeWhile (· != ';'))) with
    | .ok name => .ok name rest
    | .error e => .fail (.invalidClassName e) rest

def ClassName.read : List Char → Reading ClassName
  | [] => .fail (.unexpectedEnd .objectType) []
  | c :: rest =>
    if c = 'L' then ClassName.readName rest else .fail (.unexpected c .objectStart) rest

/-! ## References and fields -/

/-- The element type of an array with one dimension more than the number given. -/
def RefType.readElement (extraDims : ExtraDims) (source : List Char) : Reading RefType :=
  if source.head? = some 'L' then
    (ClassName.read source).map (RefType.objectArray extraDims)
  else
    (BaseType.read source).map (RefType.primitiveArray extraDims)

/-- The first bracket of an array is looked at before the others are counted. -/
def RefType.read : List Char → Reading RefType
  | [] => .fail (.unexpectedEnd .referenceType) []
  | c :: rest =>
    if c = 'L' then
      (ClassName.read (c :: rest)).map RefType.object
    else if c = '[' then
      RefType.readElement (BitVec.ofNat 64 (rest.takeWhile (· == '[')).length)
        (rest.dropWhile (· == '['))
    else
      .fail (.unexpected c .referenceType) (c :: rest)

def FieldType.read : List Char → Reading FieldType
  | [] => .fail (.unexpectedEnd .fieldType) []
  | c :: rest =>
    if c = 'L' ∨ c = '[' then
      (RefType.read (c :: rest)).map FieldType.ref
    else
      (BaseType.read (c :: rest)).map FieldType.base

/-! ## A reader takes something whenever there is something -/

theorem BaseType.length_rest_read_le (source : List Char) :
    (BaseType.read source).rest.length ≤ source.length - 1 := by
  unfold BaseType.read
  split
  · simp [Reading.fail]
  · split <;> simp [Reading.ok, Reading.fail]

theorem ClassName.length_rest_readName_le (source : List Char) :
    (ClassName.readName source).rest.length ≤ source.length := by
  have h := (List.dropWhile_sublist (l := source) (· != ';')).length_le
  unfold ClassName.readName
  split
  · simp [Reading.fail]
  · rename_i heq
    rw [heq] at h
    simp only [List.length_cons] at h
    split <;> simp [Reading.ok, Reading.fail] <;> omega

theorem ClassName.length_rest_read_le (source : List Char) :
    (ClassName.read source).rest.length ≤ source.length - 1 := by
  unfold ClassName.read
  split
  · simp [Reading.fail]
  · split
    · simpa using ClassName.length_rest_readName_le _
    · simp [Reading.fail]

theorem RefType.length_rest_readElement_le (extraDims : ExtraDims) (source : List Char) :
    (RefType.readElement extraDims source).rest.length ≤ source.length := by
  have h₁ := ClassName.length_rest_read_le source
  have h₂ := BaseType.length_rest_read_le source
  unfold RefType.readElement
  split <;> simp only [Reading.map] <;> omega

theorem FieldType.length_rest_read_lt (c : Char) (rest : List Char) :
    (FieldType.read (c :: rest)).rest.length < (c :: rest).length := by
  have h₁ := ClassName.length_rest_read_le (c :: rest)
  have h₂ := BaseType.length_rest_read_le (c :: rest)
  have h₃ := RefType.length_rest_readElement_le
    (BitVec.ofNat 64 (rest.takeWhile (· == '[')).length) (rest.dropWhile (· == '['))
  have h₄ := (List.dropWhile_sublist (l := rest) (· == '[')).length_le
  simp only [List.length_cons, Nat.add_sub_cancel] at h₁ h₂ ⊢
  unfold FieldType.read
  by_cases hL : c = 'L'
  · simp only [hL, true_or, if_true, RefType.read, Reading.map]
    simp only [hL] at h₁
    omega
  · by_cases hB : c = '['
    · simp only [hB, or_true, if_true, RefType.read, Reading.map]
      rw [if_neg (by decide)]
      omega
    · simp only [hL, hB, or_self, if_false, Reading.map]
      omega

/-! ## Methods -/

/-- The parameters up to the closing bracket, which is taken too. -/
def MethodDescriptor.readParameters : List Char → Reading (List FieldType)
  | [] => .fail (.unexpectedEnd .parametersEnd) []
  | c :: rest =>
    if c = ')' then
      .ok [] rest
    else
      let first := FieldType.read (c :: rest)
      match first.result with
      | .error e => .fail e first.rest
      | .ok t => (MethodDescriptor.readParameters first.rest).map (t :: ·)
termination_by source => source.length
decreasing_by exact FieldType.length_rest_read_lt c rest

def MethodDescriptor.readResult (source : List Char) : Reading (Option FieldType) :=
  match source with
  | 'V' :: rest => .ok none rest
  | _ => (FieldType.read source).map some

def MethodDescriptor.read : List Char → Reading MethodDescriptor
  | [] => .fail (.unexpectedEnd .methodDescriptor) []
  | c :: rest =>
    if c = '(' then
      let parameters := MethodDescriptor.readParameters rest
      match parameters.result with
      | .error e => .fail e parameters.rest
      | .ok types =>
        (MethodDescriptor.readResult parameters.rest).map (MethodDescriptor.mk types)
    else
      .fail (.unexpected c .methodStart) rest

/-! ## Whole texts -/

def BaseType.parse (text : String) : Except DescriptorError BaseType :=
  (BaseType.read text.toList).whole

def ClassName.parse (text : String) : Except DescriptorError ClassName :=
  (ClassName.read text.toList).whole

def RefType.parse (text : String) : Except DescriptorError RefType :=
  (RefType.read text.toList).whole

def FieldType.parse (text : String) : Except DescriptorError FieldType :=
  (FieldType.read text.toList).whole

def MethodDescriptor.parse (text : String) : Except DescriptorError MethodDescriptor :=
  (MethodDescriptor.read text.toList).whole

end SymbolicFrames
