import Slidecast.Number.Binary

/-!
# Rounding to the nearest number of a format

`Binary.ofMagnitude` is the only place where a value becomes a number of a format.  It takes
the step that is in force at the value, rounds the value to a whole number of steps with ties
to the even neighbour, and moves to the next step when the significand is full.  A value for
which no canonical pair is left lies beyond the largest number and becomes an infinity.
-/

set_option autoImplicit false

namespace Slidecast.Number

/-- The exponent of the largest power of two that is at most `q`, for a positive `q`. -/
def binaryExponent (q : Rat) : Int :=
  let estimate : Int := (q.num.natAbs.log2 : Int) - (q.den.log2 : Int)
  if (2 : Rat) ^ estimate ≤ q then estimate else estimate - 1

/-- The nearest whole number, ties to the even one. -/
def nearestEven (q : Rat) : Int :=
  let low := q.floor
  let rest := q - low
  if rest < 1 / 2 then low
  else if 1 / 2 < rest then low + 1
  else if low % 2 = 0 then low else low + 1

namespace Binary

variable {f : Format}

/-- The exponent of the step between neighbours at the positive value `q`. -/
def stepExponent (f : Format) (q : Rat) : Int :=
  max f.finest (binaryExponent q - (f.precision - 1))

/-- The number of the format nearest to the value `q ≥ 0`, with the given sign. -/
def ofMagnitude (negative : Bool) (q : Rat) : Binary f :=
  let e := stepExponent f q
  let m := (nearestEven (q / (2 : Rat) ^ e)).toNat
  if m = 0 then zero negative
  else
    let full : Bool := m == twoTo f.precision
    let m' := if full then twoTo (f.precision - 1) else m
    let e' := if full then e + 1 else e
    if h : f.Canonical m' e' then .finite negative m' e' h else .infinite negative

/-- The number of the format nearest to `q`; the sign of a zero is given. -/
def nearest (zeroSign : Bool) (q : Rat) : Binary f :=
  if q = 0 then zero zeroSign
  else if q < 0 then ofMagnitude true (-q)
  else ofMagnitude false q

/-- The number of the format nearest to a fraction. -/
def ofRat (q : Rat) : Binary f := nearest false q

/-- The number of the format nearest to a natural number. -/
def ofNat (n : Nat) : Binary f := ofMagnitude false n

instance (n : Nat) : OfNat (Binary f) n := ⟨ofNat n⟩

/-- A decimal literal stands for the number nearest to it. -/
instance : OfScientific (Binary f) where
  ofScientific m negativeExponent e :=
    ofMagnitude false (if negativeExponent then (m : Rat) / 10 ^ e else (m : Rat) * 10 ^ e)

/-- The nearest number of another format. -/
def convert {g : Format} : Binary f → Binary g
  | .nan => .nan
  | .infinite negative => .infinite negative
  | x@(.finite negative _ _ _) => nearest negative x.toRat

end Binary

end Slidecast.Number
