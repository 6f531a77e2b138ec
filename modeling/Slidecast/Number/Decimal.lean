import Slidecast.Number.Arithmetic

/-!
# Decimals and the shortest decimal of a number

A decimal is a natural number times a power of ten.  The shortest decimal of a positive number
of a binary format is the one with the fewest digits among those that round back to the number,
and the nearest of these; when two are equally near, a rule decides.

The search walks the decimal grids from coarse to fine, starting with one digit.  If any point
of a grid rounds back, then so does one of the two neighbours of the number on it, so each grid
needs two tests.
-/

set_option autoImplicit false

namespace Slidecast.Number

/-- A natural number times a power of ten. -/
structure Decimal where
  digits : Nat
  exponent : Int
  deriving DecidableEq

/-- What to do with a value halfway between two neighbours. -/
inductive Tie where
  | toEven
  | up
  deriving DecidableEq

/-- The exponent of the largest power of ten that is at most `q`, for a positive `q`. -/
def decimalExponent (q : Rat) : Int :=
  let estimate : Int :=
    ((toString q.num.natAbs).length : Int) - ((toString q.den).length : Int)
  if (10 : Rat) ^ estimate ≤ q then estimate else estimate - 1

namespace Decimal

/-- The exact value. -/
def toRat (d : Decimal) : Rat := d.digits * (10 : Rat) ^ d.exponent

/-- The digits as they are written. -/
def text (d : Decimal) : String := toString d.digits

/-- The exponent of the first digit. -/
def leading (d : Decimal) : Int := d.exponent + d.text.length - 1

/-- Moves zeros at the end of the digits into the exponent, at most `fuel` of them. -/
def trimmed : Nat → Decimal → Decimal
  | 0, d => d
  | fuel + 1, d =>
      if d.digits ≠ 0 ∧ d.digits % 10 = 0 then trimmed fuel ⟨d.digits / 10, d.exponent + 1⟩
      else d

/-- The same value without zeros at the end of the digits. -/
def trim (d : Decimal) : Decimal := trimmed d.text.length d

end Decimal

namespace Binary

variable {f : Format}

/-- Whether the positive value `q` rounds to the number with the canonical pair `m`, `e`: it
lies between the midpoints to the neighbours, or on one of them when `m` is even.  Below a power
of two the neighbour is half as far away. -/
def roundsBack (f : Format) (m : Nat) (e : Int) (q : Rat) : Bool :=
  let step := (2 : Rat) ^ e
  let high := (m + 1 / 2) * step
  let narrow : Bool := m == twoTo (f.precision - 1) && e != f.finest
  let low := (m - if narrow then 1 / 4 else 1 / 2) * step
  (low < q && q < high) || (m % 2 == 0 && (q == low || q == high))

/-- The decimal with `count` digits that rounds back to a positive number and is nearest to
it, if there is one. -/
def decimalOf? (f : Format) (tie : Tie) (m : Nat) (e : Int) (count : Nat) : Option Decimal :=
  let q := m * (2 : Rat) ^ e
  let exponent := decimalExponent q - (count - 1)
  let unit := (10 : Rat) ^ exponent
  let low := (q / unit).floor.toNat
  let high := low + 1
  match roundsBack f m e (low * unit), roundsBack f m e (high * unit) with
  | false, false => none
  | true, false => some ⟨low, exponent⟩
  | false, true => some ⟨high, exponent⟩
  | true, true =>
      let below := q - low * unit
      let above := high * unit - q
      let takeLow : Bool :=
        below < above || (below == above && tie == .toEven && low % 2 == 0)
      some ⟨if takeLow then low else high, exponent⟩

/-- The shortest decimal that rounds back to the distance of `x` from zero. -/
def shortest (tie : Tie) : Binary f → Decimal
  | .finite _ m e _ =>
      if m = 0 then ⟨0, 0⟩
      else
        match (List.range f.precision).findSome? (fun n => decimalOf? f tie m e (n + 1)) with
        | some d => d.trim
        | none => ⟨0, 0⟩
  | _ => ⟨0, 0⟩

end Binary

end Slidecast.Number
