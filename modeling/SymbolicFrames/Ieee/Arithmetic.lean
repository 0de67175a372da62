-- The five operations on floating-point numbers and negation. Each finite result is the
-- exact one, rounded once.
import SymbolicFrames.Ieee.Rounding

namespace SymbolicFrames.Binary

variable {f : Format}

/-- The sign changes, whatever the number. -/
def neg (x : Binary f) : Binary f :=
  ⟨x.bits ^^^ BitVec.twoPow f.width f.magnitudeBits⟩

/-- A significand with its sign, in units of a smaller power of two. -/
def aligned (negative : Bool) (significand : Nat) (shift : Nat) : Int :=
  let n : Int := (significand * Nat.pow 2 shift : Nat)
  if negative then -n else n

def add (x y : Binary f) : Binary f :=
  match x.datum, y.datum with
  | .nan, _ | _, .nan => nan f
  | .infinite s, .infinite t => if s = t then infinite f s else nan f
  | .infinite s, .finite .. => infinite f s
  | .finite .., .infinite t => infinite f t
  | .finite s m e, .finite t n k =>
    let low := min e k
    let sum := aligned s m (e - low).toNat + aligned t n (k - low).toNat
    if sum = 0 then
      zero f (s && t)
    else
      round f (decide (sum < 0)) sum.natAbs 1 low

def sub (x y : Binary f) : Binary f := x.add y.neg

def mul (x y : Binary f) : Binary f :=
  match x.datum, y.datum with
  | .nan, _ | _, .nan => nan f
  | .infinite s, .infinite t => infinite f (s != t)
  | .infinite s, .finite t n _ => if n = 0 then nan f else infinite f (s != t)
  | .finite s m _, .infinite t => if m = 0 then nan f else infinite f (s != t)
  | .finite s m e, .finite t n k => round f (s != t) (m * n) 1 (e + k)

def div (x y : Binary f) : Binary f :=
  match x.datum, y.datum with
  | .nan, _ | _, .nan => nan f
  | .infinite _, .infinite _ => nan f
  | .infinite s, .finite t .. => infinite f (s != t)
  | .finite s .., .infinite t => zero f (s != t)
  | .finite s m e, .finite t n k =>
    if n = 0 then
      if m = 0 then nan f else infinite f (s != t)
    else
      round f (s != t) m n (e - k)

/-- What is left of `x` after taking `y` away as often as it goes, with the sign of `x`. -/
def rem (x y : Binary f) : Binary f :=
  match x.datum, y.datum with
  | .nan, _ | _, .nan => nan f
  | .infinite _, _ => nan f
  | .finite .., .infinite _ => x
  | .finite s m e, .finite _ n k =>
    if n = 0 then
      nan f
    else
      let low := min e k
      round f s (m * Nat.pow 2 (e - low).toNat % (n * Nat.pow 2 (k - low).toNat)) 1 low

end SymbolicFrames.Binary
