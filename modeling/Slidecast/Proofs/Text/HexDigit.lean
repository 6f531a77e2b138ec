import Slidecast.Text.HexDigit
import Mathlib.Data.List.Basic

/-!
# The value of a hexadecimal digit

A hexadecimal digit stands in one of two rows, one in lower and one in upper case, and its value is
its place there (`hexValue?_eq_some_iff`).  No other character has a value, whatever alphabet it is
from.
-/

set_option autoImplicit false

namespace Slidecast.Text

/-- The hexadecimal digits in their order. -/
def hexDigits (upper : Bool) : List Char :=
  if upper then "0123456789ABCDEF".toList else "0123456789abcdef".toList

/-- A character is the digit with a value, in upper or lower case. -/
def IsHexDigit (c : Char) (n : Nat) : Prop := ∃ upper, (hexDigits upper)[n]? = some c

instance (c : Char) (n : Nat) : Decidable (IsHexDigit c n) :=
  inferInstanceAs (Decidable (∃ upper, (hexDigits upper)[n]? = some c))

theorem IsHexDigit.lt {c : Char} {n : Nat} (digit : IsHexDigit c n) : n < 16 := by
  obtain ⟨upper, place⟩ := digit
  have sixteen : (hexDigits upper).length = 16 := by cases upper <;> rfl
  exact sixteen ▸ (List.getElem?_eq_some_iff.1 place).1

/-- A character with a value is one of the first 128. -/
theorem toNat_lt_of_hexValue? {c : Char} {n : Nat} (value : hexValue? c = some n) :
    c.toNat < 128 := by
  unfold hexValue? at value
  split at value
  next digit =>
    simp only [Char.isDigit, Bool.and_eq_true, decide_eq_true_eq, UInt32.le_iff_toNat_le] at digit
    exact Nat.lt_of_le_of_lt digit.2 (by decide)
  next =>
    split at value
    next lower => exact Nat.lt_of_le_of_lt (UInt32.le_iff_toNat_le.1 lower.2) (by decide)
    next =>
      split at value
      next upper => exact Nat.lt_of_le_of_lt (UInt32.le_iff_toNat_le.1 upper.2) (by decide)
      next => cases value

/-- The values of the digits in a row are in order. -/
theorem map_hexValue?_hexDigits (upper : Bool) :
    (hexDigits upper).map hexValue? = (List.range 16).map some := by
  cases upper <;> decide

/-- **The value of a digit** is its place in one of the rows. -/
theorem hexValue?_eq_some_iff {c : Char} {n : Nat} : hexValue? c = some n ↔ IsHexDigit c n := by
  constructor
  · intro value
    have rows : ∀ m < 128, ∀ n ∈ hexValue? (Char.ofNat m), IsHexDigit (Char.ofNat m) n := by
      decide +kernel
    have place := rows c.toNat (toNat_lt_of_hexValue? value)
    rw [Char.ofNat_toNat] at place
    exact place n value
  · rintro ⟨upper, place⟩
    have small : n < 16 := IsHexDigit.lt ⟨upper, place⟩
    have row := congrArg (·[n]?) (map_hexValue?_hexDigits upper)
    simp only [List.getElem?_map, place, List.getElem?_range small, Option.map_some,
      Option.some.injEq] at row
    exact row

theorem not_isHexDigit {c : Char} (absent : hexValue? c = none) (n : Nat) : ¬ IsHexDigit c n := by
  intro digit
  rw [hexValue?_eq_some_iff.2 digit] at absent
  cases absent

/-- The digit that is written has its value. -/
theorem hexValue?_hexDigit {n : Nat} (small : n < 16) : hexValue? (hexDigit n) = some n := by
  have rows : ∀ n < 16, hexValue? (hexDigit n) = some n := by decide
  exact rows n small

end Slidecast.Text
