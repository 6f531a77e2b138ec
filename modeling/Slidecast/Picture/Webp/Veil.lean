import Slidecast.Picture.Octets
import Slidecast.Picture.Webp.Lossless

/-!
# Veils

The transparency of a raster with loss is kept by itself, as a plane of values or as the green
channel of pixels without loss.  Each value may be a difference from the ones to the left and above;
sums go around at 256.
-/

set_option autoImplicit false

namespace Slidecast.Picture.Webp

open Files Number

/-- What the values of a veil are differences from. -/
inductive VeilEdge where
  | none
  | left
  | top
  /-- The sum of the left and the upper value without the one between them. -/
  | slope

/-- What the next value is a difference from, when the values in front of it are known.  At the edges
of the veil there is only one choice. -/
def VeilEdge.foreseen (edge : VeilEdge) (width : Nat) (values : Array Nat) : Nat :=
  let place := values.size
  let back (count : Nat) : Nat := (values[place - count]?).getD 0
  match edge with
  | .none => 0
  | edge =>
      if place = 0 then 0
      else if place < width then back 1
      else if place % width = 0 then back width
      else match edge with
        | .left => back 1
        | .top => back width
        | _ => clamped ((back 1 : Int) + back width - back (width + 1))

/-- The values of a veil from differences. -/
def veilOf (edge : VeilEdge) (width : Nat) (differences : List Nat) : Array Nat :=
  differences.foldl
    (fun values n => values.push ((n + edge.foreseen width values) % 256)) #[]

/-- The differences of a veil of a size; they may be kept without loss. -/
def veilDifferences? (width height : Nat) (isPacked : Bool) (bytes : List UInt8) :
    Option (List Nat) :=
  if isPacked then
    (grid? width height (bitsUp bytes)).map fun grid => grid.pixels.toList.map Pixel.green
  else if width * height ≤ bytes.length then
    some ((bytes.take (width * height)).map UInt8.toNat)
  else none

/-- The veil of a row of bytes, for a raster of a size. -/
def veil? (width height : Nat) (bytes : List UInt8) : Option (Array Nat) := do
  let first :: bytes := bytes | none
  let n := first.toNat
  guard (n / 16 % 4 ≤ 1 ∧ n % 4 ≤ 1)
  let edge : VeilEdge := match n / 4 % 4 with
    | 0 => .none
    | 1 => .left
    | 2 => .top
    | _ => .slope
  let differences ← veilDifferences? width height (n % 4 = 1) bytes
  some (veilOf edge width differences)

/-- The raster under a veil. -/
def veiled (raster : Raster) (veil : Array Nat) : Raster :=
  { raster with
    pixel := fun x y =>
      { raster.pixel x y with alpha := (veil[y * raster.width + x]?).getD 0 } }

/-- A veil covers as many pixels as there are differences. -/
theorem size_veilOf (edge : VeilEdge) (width : Nat) (differences : List Nat) :
    (veilOf edge width differences).size = differences.length := by
  suffices grows : ∀ (values : Array Nat),
      (differences.foldl
        (fun values n => values.push ((n + edge.foreseen width values) % 256)) values).size
        = values.size + differences.length by
    simpa [veilOf] using grows #[]
  induction differences with
  | nil => simp
  | cons n differences ih =>
      intro values
      simp only [List.foldl_cons, ih, Array.size_push, List.length_cons]
      omega

end Slidecast.Picture.Webp
