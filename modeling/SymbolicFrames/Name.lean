-- Names of classes and members as they stand in class files. A name is a text that has
-- passed its check, so the rest of the library never meets a malformed one.

namespace SymbolicFrames

/-- Why a text is not a name. -/
inductive NameError where
  | emptyClass
  | invalidSegment (text : String)
  | emptyMember
  | illegalCharacter (text : String)
  | angleBrackets (text : String)
deriving DecidableEq

def NameError.message : NameError → String
  | .emptyClass => "Binary name is empty"
  | .invalidSegment text => String.join ["Binary name '", text, "' has an invalid segment"]
  | .emptyMember => "Unqualified name is empty"
  | .illegalCharacter text =>
    String.join ["Unqualified name '", text, "' contains an illegal character"]
  | .angleBrackets text =>
    String.join ["Only '<init>' and '<clinit>' may contain angle brackets, not '", text, "'"]

/-! ## Characters and segments -/

/-- Characters that stand for something else wherever names are used. -/
def isReserved (c : Char) : Bool :=
  c == '.' || c == ';' || c == '['

def isAngleBracket (c : Char) : Bool :=
  c == '<' || c == '>'

/-- The parts of a text between its slashes. There is always at least one, possibly empty. -/
def segments : List Char → List (List Char)
  | [] => [[]]
  | c :: rest =>
    if c = '/' then
      [] :: segments rest
    else
      match segments rest with
      | [] => [[c]]
      | first :: others => (c :: first) :: others

/-- A part of a class name holds at least one character and no reserved one. -/
def isSegment (part : List Char) : Bool :=
  !part.isEmpty && !part.any fun c => isReserved c || isAngleBracket c

/-! ## Class names -/

/-- A class name is a list of segments with slashes between them. -/
def checkClassName (text : String) : Except NameError Unit :=
  if text.toList.isEmpty then
    .error .emptyClass
  else if (segments text.toList).all isSegment then
    .ok ()
  else
    .error (.invalidSegment text)

/-- Name of a class or interface, with its packages, such as `java/lang/String`. -/
structure ClassName where
  text : String
  valid : checkClassName text = .ok ()
deriving DecidableEq

namespace ClassName

def ofString (text : String) : Except NameError ClassName :=
  match h : checkClassName text with
  | .ok () => .ok ⟨text, h⟩
  | .error e => .error e

/-- By code point, from the first character on. Equal names keep their number. -/
def sort (names : List ClassName) : List ClassName :=
  names.mergeSort fun a b => !decide (b.text < a.text)

def classObject : ClassName := ⟨"java/lang/Class", rfl⟩

def methodHandle : ClassName := ⟨"java/lang/invoke/MethodHandle", rfl⟩

def methodType : ClassName := ⟨"java/lang/invoke/MethodType", rfl⟩

def object : ClassName := ⟨"java/lang/Object", rfl⟩

def string : ClassName := ⟨"java/lang/String", rfl⟩

def throwable : ClassName := ⟨"java/lang/Throwable", rfl⟩

end ClassName

/-! ## Member names -/

/-- A member name is not cut into segments, and only the two special methods have brackets. -/
def checkMemberName (text : String) : Except NameError Unit :=
  if text.toList.isEmpty then
    .error .emptyMember
  else if text.toList.any fun c => isReserved c || c == '/' then
    .error (.illegalCharacter text)
  else if text.toList.any isAngleBracket && text != "<init>" && text != "<clinit>" then
    .error (.angleBrackets text)
  else
    .ok ()

/-- Name of a field or a method. -/
structure MemberName where
  text : String
  valid : checkMemberName text = .ok ()
deriving DecidableEq

namespace MemberName

def ofString (text : String) : Except NameError MemberName :=
  match h : checkMemberName text with
  | .ok () => .ok ⟨text, h⟩
  | .error e => .error e

/-- Name of every constructor. -/
def init : MemberName := ⟨"<init>", rfl⟩

end MemberName

end SymbolicFrames
