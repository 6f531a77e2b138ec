import Slidecast.Number.Bits

/-!
# Numbers in rows of bytes

Files of pictures keep their numbers in several bytes, with the least byte first or last.  A number
is written in as many bytes as its place has (`length_little`), and what is written is read back
(`fromLittle_little`).
-/

set_option autoImplicit false

namespace Slidecast.Picture

open Number

/-- The number of a row of bytes, least byte first. -/
def fromLittle : List UInt8 → Nat
  | [] => 0
  | b :: bytes => b.toNat + 256 * fromLittle bytes

/-- The number of a row of bytes, least byte last. -/
def fromBig (bytes : List UInt8) : Nat := bytes.foldl (fun n b => 256 * n + b.toNat) 0

/-- A number in the given count of bytes, least byte first. -/
def little : Nat → Nat → List UInt8
  | 0, _ => []
  | count + 1, n => UInt8.ofNat n :: little count (n / 256)

/-- The bytes from a place on, if there are as many. -/
def slice? (bytes : Array UInt8) (place count : Nat) : Option (List UInt8) :=
  if place + count ≤ bytes.size then some (bytes.extract place (place + count)).toList else none

/-- The number in the bytes from a place on, least byte first. -/
def little? (bytes : Array UInt8) (place count : Nat) : Option Nat :=
  (slice? bytes place count).map fromLittle

/-- The number in the bytes from a place on, least byte last. -/
def big? (bytes : Array UInt8) (place count : Nat) : Option Nat :=
  (slice? bytes place count).map fromBig

/-- A number of so many bits, of which the highest is a sign. -/
def signed (bits n : Nat) : Int := if n < twoTo (bits - 1) then n else n - twoTo bits

theorem length_little (count n : Nat) : (little count n).length = count := by
  induction count generalizing n with
  | zero => rfl
  | succ count ih => simp [little, ih]

theorem fromLittle_little (count n : Nat) (h : n < Nat.pow 256 count) :
    fromLittle (little count n) = n := by
  induction count generalizing n with
  | zero =>
      have : n = 0 := Nat.lt_one_iff.1 h
      simp [fromLittle, little, this]
  | succ count ih =>
      have less : n / 256 < Nat.pow 256 count :=
        (Nat.div_lt_iff_lt_mul (by decide : 0 < 256)).2 h
      simp only [little, fromLittle, UInt8.toNat_ofNat', ih _ less]
      omega

end Slidecast.Picture
