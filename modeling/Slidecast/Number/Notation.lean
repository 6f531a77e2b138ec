import Slidecast.Number.Decimal

/-!
# Writing numbers

Three ways to write a number are used: plainly, with the shortest digits and never an exponent;
by a `Notation`, which says from where to where the point is written in its place and how a
number beyond that gets its exponent; and with a fixed number of places, rounded from the exact
value with ties to the even digit.
-/

set_option autoImplicit false

namespace Slidecast.Number

/-- How numbers of a format are written with their shortest digits. -/
structure Notation where
  /-- Which of two equally near decimals is taken. -/
  tie : Tie
  /-- The exponents of the first digit for which the point stands in its place. -/
  positional : Int → Bool
  /-- What follows a whole number that is written without an exponent. -/
  wholeSuffix : String

namespace Decimal

/-- The digits with the point in its place. -/
def positional (wholeSuffix : String) (d : Decimal) : String :=
  let digits := d.text.toList
  if 0 ≤ d.exponent then
    String.ofList (digits ++ List.replicate d.exponent.toNat '0') ++ wholeSuffix
  else
    let places := (-d.exponent).toNat
    if places < digits.length then
      let whole := digits.length - places
      String.ofList (digits.take whole ++ '.' :: digits.drop whole)
    else
      "0." ++ String.ofList (List.replicate (places - digits.length) '0' ++ digits)

/-- One digit before the point, and the exponent with its sign. -/
def scientific (d : Decimal) : String :=
  let sign := if d.leading < 0 then "-" else "+"
  let mantissa :=
    match d.text.toList with
    | [] => "0"
    | [digit] => String.ofList [digit]
    | digit :: rest => String.ofList (digit :: '.' :: rest)
  mantissa ++ "e" ++ sign ++ toString d.leading.natAbs

end Decimal

namespace Binary

variable {f : Format}

/-- Writes a number with its shortest digits.  Infinities are `inf` and "not a number" is
`NaN`. -/
def write (style : Notation) : Binary f → String
  | .nan => "NaN"
  | .infinite negative => if negative then "-inf" else "inf"
  | x@(.finite negative _ _ _) =>
      let d := x.shortest style.tie
      let body :=
        if style.positional d.leading then d.positional style.wholeSuffix else d.scientific
      if negative then "-" ++ body else body

/-- Plain numbers have no exponent and no point after a whole number, and the upper one of two
equally near decimals is taken. -/
def plainNotation : Notation where
  tie := .up
  positional := fun _ => true
  wholeSuffix := ""

/-- The plain text of a number: `0.4`, `-0`, `10000000000000000`, `NaN`, `inf`. -/
def plain (x : Binary f) : String := x.write plainNotation

/-- Text with a fixed number of places. -/
def fixed (places : Nat) : Binary f → String
  | .nan => "NaN"
  | .infinite negative => if negative then "-inf" else "inf"
  | x@(.finite negative _ _ _) =>
      let scaled := (nearestEven (x.magnitude * tenTo places)).toNat
      let whole := toString (scaled / tenTo places)
      let fraction := (toString (scaled % tenTo places)).toList
      let body :=
        if places = 0 then whole
        else whole ++ "." ++
          String.ofList (List.replicate (places - fraction.length) '0' ++ fraction)
      if negative then "-" ++ body else body

instance : ToString (Binary f) := ⟨plain⟩

end Binary

end Slidecast.Number
