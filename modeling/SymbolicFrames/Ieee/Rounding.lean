-- Rounding a positive fraction to the nearest number of a format; of two equally near
-- the one with an even last place is taken.
import SymbolicFrames.Ieee.Basic

namespace SymbolicFrames

/-- The whole number nearest to a fraction, ties to even. -/
def roundHalfEven (num den : Nat) : Nat :=
  let q := num / den
  let r := 2 * (num % den)
  if r < den then q
  else if den < r then q + 1
  else if q % 2 = 0 then q else q + 1

/-- A fraction times a power of two, as a fraction. -/
def scale (num den : Nat) (exponent : Int) : Nat × Nat :=
  if 0 ≤ exponent then
    (num * Nat.pow 2 exponent.toNat, den)
  else
    (num, den * Nat.pow 2 (-exponent).toNat)

/-- The power of two at or below a positive fraction. -/
def leadingExponent (num den : Nat) : Int :=
  let guess : Int := (num.log2 : Int) - den.log2
  let (n, d) := scale num den (-guess)
  if d ≤ n then guess else guess - 1

namespace Binary

/-- The number nearest to `num / den * 2 ^ exponent`. The last place is as fine as the
format allows; adding the rounded significand to the exponent field carries into it when
rounding reaches the next power of two, and past the largest number lies infinity. -/
def round (f : Format) (negative : Bool) (num den : Nat) (exponent : Int) : Binary f :=
  if num = 0 then
    zero f negative
  else
    let place := max f.leastExponent (leadingExponent num den + exponent - f.fractionBits)
    let (n, d) := scale num den (exponent - place)
    let steps := (place - f.leastExponent).toNat
    let magnitude := steps * Nat.pow 2 f.fractionBits + roundHalfEven n d
    ofMagnitude f negative (min magnitude f.infinity)

/-- The number nearest to a whole number. -/
def ofInt (f : Format) (n : Int) : Binary f :=
  round f (decide (n < 0)) n.natAbs 1 0

/-- The whole part, with nothing for what is not a number and the ends of the range for
what lies outside. -/
def toWord {f : Format} (width : Nat) (x : Binary f) : BitVec width :=
  match x.datum with
  | .nan => 0
  | .infinite negative => if negative then BitVec.intMin width else BitVec.intMax width
  | .finite negative significand exponent =>
    let (n, d) := scale significand 1 exponent
    let whole : Int := if negative then -(n / d : Nat) else (n / d : Nat)
    if whole < (BitVec.intMin width).toInt then
      BitVec.intMin width
    else if (BitVec.intMax width).toInt < whole then
      BitVec.intMax width
    else
      BitVec.ofInt width whole

/-- The same number in another format, rounded if need be. -/
def convert {f : Format} (g : Format) (x : Binary f) : Binary g :=
  match x.datum with
  | .nan => nan g
  | .infinite negative => infinite g negative
  | .finite negative significand exponent => round g negative significand 1 exponent

end Binary

end SymbolicFrames
