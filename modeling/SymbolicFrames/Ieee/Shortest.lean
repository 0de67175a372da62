-- Floating-point numbers in decimal: the fewest digits that read back as the same number,
-- and of those the ones nearest to it.
import SymbolicFrames.Ieee.Basic

namespace SymbolicFrames

/-! ## The shortest decimal -/

/-- The numbers that read back as a given one, all counted in the same small unit. -/
structure Interval where
  low : Nat
  value : Nat
  high : Nat
  /-- Whether the two ends read back too. -/
  closed : Bool

namespace Interval

def contains (i : Interval) (n : Nat) : Bool :=
  if i.closed then
    decide (i.low ≤ n) && decide (n ≤ i.high)
  else
    decide (i.low < n) && decide (n < i.high)

/-- The coarsest grid of a power of ten, from the given one down, that has a point in the
interval next to its value. The nearer neighbour is taken, and of two equally near the
upper one. The finest grid holds the value itself. -/
def shortest (i : Interval) : Nat → Nat × Nat
  | 0 => (i.value, 0)
  | power + 1 =>
    let step := Nat.pow 10 (power + 1)
    let below := i.value / step
    let lower := i.contains (below * step)
    let upper := i.contains ((below + 1) * step)
    if lower && (!upper || decide (2 * (i.value % step) < step)) then
      (below, power + 1)
    else if upper then
      (below + 1, power + 1)
    else
      i.shortest power

end Interval

/-- Digits with the place of the first: `d₁.d₂d₃… × 10 ^ exponent`. -/
structure Decimal where
  digits : List Char
  exponent : Int

namespace Decimal

def dropTrailingZeros (digits : List Char) : List Char :=
  (digits.reverse.dropWhile (· == '0')).reverse

/-- The shortest decimal for `significand * 2 ^ exponent`, which is not zero. Everything is
counted in quarters of the last place, and these in a power of ten small enough to make
them whole. Beneath a power of two, where `narrow` holds, the next number is half as far. -/
def ofBinary (significand : Nat) (exponent : Int) (narrow : Bool) : Decimal :=
  let places := (2 - exponent).toNat
  let quarter := Nat.pow 5 places * Nat.pow 2 (exponent - 2).toNat
  let value := 4 * significand * quarter
  let interval : Interval :=
    { low := value - (if narrow then quarter else 2 * quarter)
      value
      high := value + 2 * quarter
      closed := significand % 2 == 0 }
  let size := (Nat.toDigits 10 value).length
  let (n, power) := interval.shortest (size - 1)
  let digits := Nat.toDigits 10 n
  { digits := dropTrailingZeros digits
    exponent := (digits.length + power : Int) - 1 - places }

/-! ## Layout -/

/-- Powers of ten for which the digits are written out in their places. -/
def isPositional (exponent : Int) : Bool :=
  decide (-4 ≤ exponent) && decide (exponent ≤ 15)

/-- Digits in their places, with at least one on either side of the point. -/
def positional (d : Decimal) : List Char :=
  if d.exponent < 0 then
    '0' :: '.' :: (List.replicate ((-d.exponent).toNat - 1) '0' ++ d.digits)
  else
    let size := d.exponent.toNat + 1
    let whole := d.digits.take size
    let fraction := d.digits.drop size
    whole ++ List.replicate (size - whole.length) '0'
      ++ '.' :: (if fraction.isEmpty then ['0'] else fraction)

/-- One digit before the point, and no point if that is all. -/
def scientific (d : Decimal) : List Char :=
  let mantissa :=
    match d.digits with
    | first :: second :: others => first :: '.' :: second :: others
    | digits => digits
  mantissa ++ 'e' :: (toString d.exponent).toList

def text (d : Decimal) : List Char :=
  if isPositional d.exponent then d.positional else d.scientific

end Decimal

namespace Binary

def signText (negative : Bool) : String := if negative then "-" else ""

def text {f : Format} (x : Binary f) : String :=
  match x.datum with
  | .nan => "NaN"
  | .infinite negative => signText negative ++ "inf"
  | .finite negative significand exponent =>
    if significand = 0 then
      signText negative ++ "0.0"
    else
      let narrow := significand == Nat.pow 2 f.fractionBits && exponent != f.leastExponent
      signText negative ++ String.ofList (Decimal.ofBinary significand exponent narrow).text

end Binary

end SymbolicFrames
