-- Binary floating-point numbers, given by their bits. Two numbers are the same only if
-- their bits are, so there are two zeros and many that are not a number; what the bits
-- mean is told by `Binary.datum`.

namespace SymbolicFrames

/-- Sizes of the two fields of a floating-point format, beside its sign. -/
structure Format where
  exponentBits : Nat
  fractionBits : Nat
deriving DecidableEq

namespace Format

def single : Format := ⟨8, 23⟩

def double : Format := ⟨11, 52⟩

/-- Bits without the sign. -/
def magnitudeBits (f : Format) : Nat := f.exponentBits + f.fractionBits

def width (f : Format) : Nat := f.magnitudeBits + 1

/-- Power of two of the last place of the smallest numbers. -/
def leastExponent (f : Format) : Int :=
  2 - Nat.pow 2 (f.exponentBits - 1) - f.fractionBits

/-- Magnitude that stands for infinity; every larger one is not a number. -/
def infinity (f : Format) : Nat := (Nat.pow 2 f.exponentBits - 1) * Nat.pow 2 f.fractionBits

/-- The magnitude written when a result is not a number. -/
def quietNan (f : Format) : Nat := f.infinity + Nat.pow 2 (f.fractionBits - 1)

end Format

/-- A floating-point number of the given format. -/
structure Binary (f : Format) where
  bits : BitVec f.width
deriving DecidableEq

abbrev Binary32 := Binary .single

abbrev Binary64 := Binary .double

/-- What the bits of a number mean. A finite one is its significand times a power of two. -/
inductive Datum where
  | nan
  | infinite (negative : Bool)
  | finite (negative : Bool) (significand : Nat) (exponent : Int)
deriving DecidableEq

namespace Binary

variable {f : Format}

/-- Put together from its sign and the bits beneath. -/
def ofMagnitude (f : Format) (negative : Bool) (magnitude : Nat) : Binary f :=
  ⟨BitVec.ofNat f.width ((if negative then Nat.pow 2 f.magnitudeBits else 0) + magnitude)⟩

def negative (x : Binary f) : Bool := x.bits.msb

/-- The bits beneath the sign, as a number. -/
def magnitude (x : Binary f) : Nat := x.bits.toNat % Nat.pow 2 f.magnitudeBits

def isNan (x : Binary f) : Bool := decide (f.infinity < x.magnitude)

def isZero (x : Binary f) : Bool := x.magnitude == 0

/-- The last place is the same for the smallest exponent and the zero one, where the
leading digit is no longer implied. -/
def datum (x : Binary f) : Datum :=
  let biased := x.magnitude / Nat.pow 2 f.fractionBits
  let fraction := x.magnitude % Nat.pow 2 f.fractionBits
  if x.isNan then
    .nan
  else if x.magnitude = f.infinity then
    .infinite x.negative
  else if biased = 0 then
    .finite x.negative fraction f.leastExponent
  else
    .finite x.negative (Nat.pow 2 f.fractionBits + fraction)
      (f.leastExponent + (biased - 1 : Nat))

def nan (f : Format) : Binary f := ofMagnitude f false f.quietNan

def infinite (f : Format) (negative : Bool) : Binary f := ofMagnitude f negative f.infinity

def zero (f : Format) (negative : Bool) : Binary f := ofMagnitude f negative 0

/-- Equality as numbers: the two zeros are equal, and what is not a number equals nothing. -/
def equals (x y : Binary f) : Bool :=
  !x.isNan && !y.isNan && (x == y || x.isZero && y.isZero)

end Binary

end SymbolicFrames
