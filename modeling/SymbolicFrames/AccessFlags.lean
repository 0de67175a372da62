-- Access flags of methods. Only one of them matters to the analysis: a static method has
-- no receiver. The others are kept so that a caller can read back what it passed in.

namespace SymbolicFrames

inductive AccessFlag where
  | «public» | «private» | «protected» | «static» | final | synchronized | bridge | varargs
  | native | abstract | strict | synthetic
deriving DecidableEq

namespace AccessFlag

/-- Every flag, from the lowest bit up. -/
def all : List AccessFlag :=
  [.public, .private, .protected, .static, .final, .synchronized, .bridge, .varargs,
    .native, .abstract, .strict, .synthetic]

/-- Position of the flag's bit. -/
def position : AccessFlag → Nat
  | .public => 0
  | .private => 1
  | .protected => 2
  | .static => 3
  | .final => 4
  | .synchronized => 5
  | .bridge => 6
  | .varargs => 7
  | .native => 8
  | .abstract => 10
  | .strict => 11
  | .synthetic => 12

def text : AccessFlag → String
  | .public => "PUBLIC"
  | .private => "PRIVATE"
  | .protected => "PROTECTED"
  | .static => "STATIC"
  | .final => "FINAL"
  | .synchronized => "SYNCHRONIZED"
  | .bridge => "BRIDGE"
  | .varargs => "VARARGS"
  | .native => "NATIVE"
  | .abstract => "ABSTRACT"
  | .strict => "STRICT"
  | .synthetic => "SYNTHETIC"

def mask (flag : AccessFlag) : BitVec 16 := BitVec.twoPow 16 flag.position

/-- The bits that stand for some flag. -/
def known : BitVec 16 := all.foldl (fun bits flag => bits ||| flag.mask) 0

end AccessFlag

/-- A set of access flags, as the bits of a class file. -/
structure AccessFlags where
  bits : BitVec 16
deriving DecidableEq

namespace AccessFlags

/-- The flags with exactly these bits, if every bit stands for a flag. -/
def ofBits? (bits : BitVec 16) : Option AccessFlags :=
  if bits &&& ~~~AccessFlag.known = 0 then some ⟨bits⟩ else none

/-- The flags among these bits. Other bits are dropped. -/
def truncate (bits : BitVec 16) : AccessFlags := ⟨bits &&& AccessFlag.known⟩

def contains (flags : AccessFlags) (flag : AccessFlag) : Bool :=
  flags.bits.getLsbD flag.position

/-- Whether the first local holds the object the method is called on. -/
def hasReceiver (flags : AccessFlags) : Bool := !flags.contains .static

def toList (flags : AccessFlags) : List AccessFlag :=
  AccessFlag.all.filter flags.contains

def text (flags : AccessFlags) : String :=
  match flags.toList with
  | [] => "(empty)"
  | present => " | ".intercalate (present.map AccessFlag.text)

end AccessFlags

end SymbolicFrames
