import Slidecast.Number.Bits

/-!
# Waves in squares

A square of eight times eight values is a sum of waves: each of the numbers in another square tells
how strong one wave is.  The values are worked out in whole numbers, first along one side of the
square and then along the other one.
-/

set_option autoImplicit false

namespace Slidecast.Picture.Cosine

open Number

/-- The bits of a fraction, in which the heights of waves are given. -/
def precision : Nat := 12

/-- Half of a cosine in units of the precision, at sixteenths of half a turn up to a quarter of a
turn. -/
def halfCosines : Array Int := #[2048, 2009, 1892, 1703, 1448, 1138, 784, 400, 0]

/-- Half of a cosine at so many sixteenths of half a turn. -/
def halfCosine (n : Nat) : Int :=
  let n := n % 32
  let n := if 16 < n then 32 - n else n
  if n ≤ 8 then (halfCosines[n]?).getD 0 else -(halfCosines[16 - n]?).getD 0

/-- The height of a wave at one of eight places; the wave zero is flat. -/
def height (wave place : Nat) : Int :=
  if wave = 0 then (halfCosines[4]?).getD 0 else halfCosine ((2 * place + 1) * wave)

/-- The sum of eight waves at eight places; the strengths stand in steps from a first place on. -/
def line (strengths : Array Int) (first step : Nat) : List Int :=
  let own := (List.range 8).map fun wave => (wave, (strengths[first + wave * step]?).getD 0)
  let own := own.filter fun (_, strength) => strength ≠ 0
  (List.range 8).map fun place =>
    own.foldl (fun sum (wave, strength) => sum + strength * height wave place) 0

/-- A number of units in the precision of two sums, rounded to the nearest whole number. -/
def rounded (n : Int) : Int := (n + twoTo (2 * precision - 1)).fdiv (twoTo (2 * precision))

/-- The values of a square from the strengths of its waves, row after row. -/
def square (strengths : Array Int) : Array Int :=
  let columns := ((List.range 8).flatMap fun row => line strengths (8 * row) 1).toArray
  let transposed := ((List.range 8).map fun column => (line columns column 8).toArray).toArray
  ((List.range 8).flatMap fun row =>
    (List.range 8).map fun column =>
      rounded ((((transposed[column]?).getD #[])[row]?).getD 0)).toArray

/-- The height of a flat wave is the same everywhere. -/
theorem height_zero (place : Nat) : height 0 place = 1448 := rfl

end Slidecast.Picture.Cosine
