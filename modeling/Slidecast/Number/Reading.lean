import Slidecast.Number.Notation

/-!
# Reading numbers

The text of a number is an optional sign followed by digits, with an optional point among them
and an optional exponent, or by `inf`, `infinity` or `nan` in letters of any case.  The value
that is read is the number of the format nearest to the decimal.
-/

set_option autoImplicit false

namespace Slidecast.Number

/-- The value of a digit of the decimal system. -/
def digitValue (c : Char) : Nat := c.toNat - '0'.toNat

/-- The natural number that a row of digits stands for. -/
def ofDigits (digits : List Char) : Nat :=
  digits.foldl (fun n c => 10 * n + digitValue c) 0

namespace Binary

variable {f : Format}

/-- The number of the format nearest to `digits * 10 ^ exponent`.  A decimal that is far beyond
the largest number, or far below the finest step, is decided by the place of its first digit,
without computing the power. -/
def ofDecimal (negative : Bool) (d : Decimal) : Binary f :=
  if d.digits = 0 then zero negative
  else if f.coarsest + f.precision ≤ d.leading then .infinite negative
  else if d.leading < f.finest - 1 then zero negative
  else ofMagnitude negative d.toRat

/-- Reads the exponent of a decimal: nothing, or `e` and a whole number. -/
def exponentOf? : List Char → Option Int
  | [] => some 0
  | c :: rest =>
      if c = 'e' ∨ c = 'E' then
        let (negative, digits) : Bool × List Char :=
          match rest with
          | '-' :: r => (true, r)
          | '+' :: r => (false, r)
          | r => (false, r)
        if digits.isEmpty || !digits.all Char.isDigit then none
        else some (if negative then -(ofDigits digits : Int) else ofDigits digits)
      else none

/-- Reads digits with an optional point and an optional exponent. -/
def decimalOfText? (cs : List Char) : Option Decimal :=
  let whole := cs.takeWhile Char.isDigit
  let rest := cs.dropWhile Char.isDigit
  let (fraction, rest) : List Char × List Char :=
    match rest with
    | '.' :: r => (r.takeWhile Char.isDigit, r.dropWhile Char.isDigit)
    | r => ([], r)
  if whole.isEmpty && fraction.isEmpty then none
  else
    (exponentOf? rest).map fun e =>
      { digits := ofDigits (whole ++ fraction), exponent := e - fraction.length }

/-- Reads a number without its sign. -/
def unsigned? (negative : Bool) (cs : List Char) : Option (Binary f) :=
  let word := cs.map Char.toLower
  if word = "inf".toList ∨ word = "infinity".toList then some (.infinite negative)
  else if word = "nan".toList then some .nan
  else (decimalOfText? cs).map (ofDecimal negative)

/-- Reads a number. -/
def read? (text : String) : Option (Binary f) :=
  match text.toList with
  | '-' :: cs => unsigned? true cs
  | '+' :: cs => unsigned? false cs
  | cs => unsigned? false cs

end Binary

end Slidecast.Number
