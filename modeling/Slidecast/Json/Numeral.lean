import Slidecast.Json.Fault
import Slidecast.Number.Reading

/-!
# Numbers in JSON texts

A number without point and exponent is a whole number, as long as it fits in 64 bits.  Every
other number is read as a significand of at most 64 bits, whose further digits only move the
point or are ignored, and the significand is then multiplied or divided by a rounded power of
ten.  A number whose scaled value is infinite is no number of the format.
-/

set_option autoImplicit false

namespace Slidecast.Json

open Slidecast.Number

/-- A number as a text gives it. -/
inductive Numeral where
  | natural (n : Nat)
  | negative (n : Nat)
  | real (x : Double)
  deriving DecidableEq

/-- The largest significand. -/
def significandLimit : Nat := largest 64

/-- Takes digits into a significand as long as it stays within its limit; gives the significand
and how many digits are left over. -/
def accumulate (significand : Nat) : List Char → Nat × Nat
  | [] => (significand, 0)
  | c :: digits =>
      let next := 10 * significand + digitValue c
      if next ≤ significandLimit then accumulate next digits
      else (significand, digits.length + 1)

/-- The largest power of ten by which a significand is scaled at once. -/
def widestScale : Nat := 308

/-- The number nearest to a power of ten. -/
def powerOfTen (n : Nat) : Double := Binary.ofRat ((10 : Rat) ^ n)

/-- Multiplies or divides by a power of ten, in steps of at most `10 ^ 308`; nothing, if the
result is infinite. -/
def scale (x : Double) (exponent : Int) : Option Double :=
  if exponent.natAbs ≤ widestScale then
    if 0 ≤ exponent then
      let y := x * powerOfTen exponent.natAbs
      if y.isFinite then some y else none
    else some (x / powerOfTen exponent.natAbs)
  else if x.isZero then some x
  else if 0 ≤ exponent then none
  else scale (x / powerOfTen widestScale) (exponent + widestScale)
termination_by exponent.natAbs
decreasing_by
  simp only [widestScale] at *
  omega

/-- Whether the next character is a digit. -/
def startsWithDigit : List Char → Bool
  | c :: _ => c.isDigit
  | [] => false

/-- The largest exponent that is read. -/
def exponentLimit : Nat := largest 31

/-- A scaled significand with its sign. -/
def scaled (negative : Bool) (significand : Nat) (exponent : Int) : Except Fault Double :=
  match scale (Binary.ofNat significand) exponent with
  | some x => .ok (if negative then -x else x)
  | none => .error .malformed

/-- Reads the exponent behind `e`. -/
def exponentPart (negative : Bool) (significand : Nat) (exponent : Int) (cs : List Char) :
    Except Fault (Double × List Char) :=
  let (down, cs) : Bool × List Char :=
    match cs with
    | '+' :: rest => (false, rest)
    | '-' :: rest => (true, rest)
    | rest => (false, rest)
  match cs with
  | [] => .error .endOfText
  | _ :: _ =>
      let digits := cs.takeWhile Char.isDigit
      let rest := cs.dropWhile Char.isDigit
      if digits.isEmpty then .error .malformed
      else
        let n := ofDigits digits
        if exponentLimit < n then
          if significand ≠ 0 ∧ !down then .error .malformed
          else .ok (Binary.zero negative, rest)
        else do
          let x ← scaled negative significand (if down then exponent - n else exponent + n)
          .ok (x, rest)

/-- Reads what may follow the whole part of a number that is not whole: the digits behind the
point, and an exponent. -/
def fractionPart (negative : Bool) (significand : Nat) (exponent : Int) (cs : List Char) :
    Except Fault (Double × List Char) :=
  match cs with
  | '.' :: rest =>
      let digits := rest.takeWhile Char.isDigit
      let rest := rest.dropWhile Char.isDigit
      if digits.isEmpty then .error (if rest.isEmpty then .endOfText else .malformed)
      else
        let (significand, left) := accumulate significand digits
        let exponent := exponent - ((digits.length : Int) - left)
        match rest with
        | 'e' :: rest | 'E' :: rest => exponentPart negative significand exponent rest
        | rest => do .ok (← scaled negative significand exponent, rest)
  | 'e' :: rest | 'E' :: rest => exponentPart negative significand exponent rest
  | rest => do .ok (← scaled negative significand exponent, rest)

/-- Whether a point or an exponent follows. -/
def continues : List Char → Bool
  | '.' :: _ | 'e' :: _ | 'E' :: _ => true
  | _ => false

/-- A whole number with its sign; the negative zero and what does not fit in 63 bits below zero
are not whole numbers. -/
def signed (negative : Bool) (n : Nat) : Numeral :=
  if !negative then .natural n
  else if n = 0 ∨ twoTo 63 < n then .real (-(Binary.ofNat n))
  else .negative n

/-- Reads a number behind its sign. -/
def numeral (negative : Bool) (cs : List Char) : Except Fault (Numeral × List Char) :=
  match cs with
  | [] => .error .endOfText
  | c :: tail =>
      if !c.isDigit then .error .malformed
      else if c = '0' ∧ startsWithDigit tail then .error .malformed
      else
        let digits := cs.takeWhile Char.isDigit
        let rest := cs.dropWhile Char.isDigit
        let (significand, left) := accumulate 0 digits
        if left = 0 ∧ !continues rest then .ok (signed negative significand, rest)
        else do
          let (x, rest) ← fractionPart negative significand left rest
          .ok (.real x, rest)

/-! ## Numbers that are not wanted -/

/-- Passes over an exponent behind `e`. -/
def skipExponent (cs : List Char) : Except Fault (List Char) :=
  let cs :=
    match cs with
    | '+' :: rest | '-' :: rest => rest
    | rest => rest
  if startsWithDigit cs then .ok (cs.dropWhile Char.isDigit) else .error .malformed

/-- Passes over a number behind its sign. -/
def skipNumeral (cs : List Char) : Except Fault (List Char) :=
  match cs with
  | [] => .error .malformed
  | c :: tail =>
      if !c.isDigit then .error .malformed
      else if c = '0' ∧ startsWithDigit tail then .error .malformed
      else
        match cs.dropWhile Char.isDigit with
        | '.' :: rest =>
            if startsWithDigit rest then
              match rest.dropWhile Char.isDigit with
              | 'e' :: rest | 'E' :: rest => skipExponent rest
              | rest => .ok rest
            else .error .malformed
        | 'e' :: rest | 'E' :: rest => skipExponent rest
        | rest => .ok rest

end Slidecast.Json
