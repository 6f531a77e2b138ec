import Slidecast.Files.Raster
import Slidecast.Number.Bits

/-!
# Forecasts of pixels

Pixels that are kept without loss are first made small: each is kept as its difference from a
forecast, colours as their differences from the green channel, or as numbers of colours in a
palette.  Here the ways back are.  Sums of channels go around at 256.
-/

set_option autoImplicit false

namespace Slidecast.Picture.Webp

open Files Number

/-- A rectangle of pixels in rows. -/
structure Grid where
  width : Nat
  height : Nat
  pixels : Array Pixel

/-- The pixel that stands where there is none. -/
def nothing : Pixel := ⟨0, 0, 0, 0⟩

/-- A pixel of a grid. -/
def Grid.pixelAt (grid : Grid) (x y : Nat) : Pixel :=
  (grid.pixels[y * grid.width + x]?).getD nothing

/-- A pixel whose channels are worked out from those of two others. -/
def zipChannels (f : Nat → Nat → Nat) (p q : Pixel) : Pixel :=
  ⟨f p.red q.red, f p.green q.green, f p.blue q.blue, f p.alpha q.alpha⟩

/-- The sum of two pixels. -/
def added : Pixel → Pixel → Pixel := zipChannels fun a b => (a + b) % 256

/-- The pixel halfway between two others, rounded down. -/
def between : Pixel → Pixel → Pixel := zipChannels fun a b => (a + b) / 2

/-- A number, moved to the nearest one from 0 to 255. -/
def clamped (n : Int) : Nat := min n.toNat 255

/-- The pixels around one that has not been met yet. -/
structure Neighbours where
  left : Pixel
  top : Pixel
  topLeft : Pixel
  topRight : Pixel

/-- How far the channels of a pixel lie from those that two others foretell: their sum without the
pixel between them. -/
def distance (n : Neighbours) (p : Pixel) : Nat :=
  let far (channel : Pixel → Nat) : Nat :=
    ((channel n.left : Int) + channel n.top - channel n.topLeft - channel p).natAbs
  far Pixel.red + far Pixel.green + far Pixel.blue + far Pixel.alpha

/-- The left or the upper neighbour, whichever is nearer to what they foretell. -/
def nearer (n : Neighbours) : Pixel :=
  if distance n n.left < distance n n.top then n.left else n.top

/-- The left and the upper neighbour added, without the pixel between them. -/
def slope (n : Neighbours) : Pixel :=
  zipChannels (fun sum corner => clamped ((sum : Int) - corner))
    (zipChannels (· + ·) n.left n.top) n.topLeft

/-- The pixel halfway between the left and the upper neighbour, moved on by half of its difference
from the pixel between them. -/
def halfSlope (n : Neighbours) : Pixel :=
  zipChannels (fun middle corner => clamped (middle + ((middle : Int) - corner).tdiv 2))
    (between n.left n.top) n.topLeft

/-- The forecast of a kind. -/
def forecast (kind : Nat) (n : Neighbours) : Pixel :=
  match kind with
  | 1 => n.left
  | 2 => n.top
  | 3 => n.topRight
  | 4 => n.topLeft
  | 5 => between (between n.left n.topRight) n.top
  | 6 => between n.left n.topLeft
  | 7 => between n.left n.top
  | 8 => between n.topLeft n.top
  | 9 => between n.top n.topRight
  | 10 => between (between n.left n.topLeft) (between n.top n.topRight)
  | 11 => nearer n
  | 12 => slope n
  | 13 => halfSlope n
  | _ => ⟨0, 0, 0, 255⟩

/-- A way in which pixels have been made small; what is told for a square of pixels stands in a
smaller grid. -/
inductive Change where
  /-- Differences from forecasts, whose kinds are told for squares with sides of so many bits. -/
  | forecasts (bits : Nat) (table : Grid)
  /-- Differences from shares of other channels, which are told for such squares. -/
  | shares (bits : Nat) (table : Grid)
  /-- Differences of red and blue from green. -/
  | fromGreen
  /-- Numbers of colours, so many bits of the column side by side, in a grid of this width. -/
  | palette (bits width : Nat) (colours : Array Pixel)

/-- The pixel of a smaller grid that tells something of a place. -/
def tellingOf (bits : Nat) (grid : Grid) (x y : Nat) : Pixel :=
  grid.pixelAt (x / twoTo bits) (y / twoTo bits)

/-- Which forecast is made at a place: at the edges it is always the same one. -/
def forecastKind (bits : Nat) (kinds : Grid) (x y : Nat) : Nat :=
  if y = 0 then if x = 0 then 0 else 1
  else if x = 0 then 2
  else (tellingOf bits kinds x y).green % 16

/-- The pixels of a grid of differences from forecasts.  The neighbour to the upper right of the
last pixel of a row is the first one of the row. -/
def undoForecasts (bits : Nat) (kinds grid : Grid) : Grid :=
  let back (out : Array Pixel) (count : Nat) : Pixel :=
    if count ≤ out.size then (out[out.size - count]?).getD nothing else nothing
  { grid with
    pixels := grid.pixels.foldl
      (fun out difference =>
        let kind := forecastKind bits kinds (out.size % grid.width) (out.size / grid.width)
        let neighbours : Neighbours :=
          { left := back out 1
            top := back out grid.width
            topLeft := back out (grid.width + 1)
            topRight := back out (grid.width - 1) }
        out.push (added difference (forecast kind neighbours)))
      #[] }

/-- A channel as a number with a sign. -/
def withSign (channel : Nat) : Int := if channel < 128 then channel else (channel : Int) - 256

/-- A channel with a share of another one. -/
def withShare (channel share other : Nat) : Nat :=
  (((channel : Int) + (withSign share * withSign other).fdiv 32).emod 256).toNat

/-- The pixel of differences from shares of other channels. -/
def undoShares (shares p : Pixel) : Pixel :=
  let red := withShare p.red shares.blue p.green
  { p with red, blue := withShare (withShare p.blue shares.green p.green) shares.red red }

/-- The pixel of differences from green. -/
def undoFromGreen (p : Pixel) : Pixel :=
  { p with red := (p.red + p.green) % 256, blue := (p.blue + p.green) % 256 }

/-- The colour of a palette at a place of a grid of numbers. -/
def coloured (bits : Nat) (colours : Array Pixel) (grid : Grid) (x y : Nat) : Pixel :=
  let size := 8 / twoTo bits
  let number := (grid.pixelAt (x / twoTo bits) y).green
  let number := number / twoTo (x % twoTo bits * size) % twoTo size
  (colours[number]?).getD nothing

/-- The grid of pixels that have been made at places. -/
def Grid.ofPlaces (width height : Nat) (pixel : Nat → Nat → Pixel) : Grid :=
  { width, height
    pixels := ((List.range height).flatMap fun y =>
      (List.range width).map fun x => pixel x y).toArray }

/-- The grid as it was before a change. -/
def Change.undo (change : Change) (grid : Grid) : Grid :=
  match change with
  | .forecasts bits table => undoForecasts bits table grid
  | .shares bits table =>
      .ofPlaces grid.width grid.height fun x y =>
        undoShares (tellingOf bits table x y) (grid.pixelAt x y)
  | .fromGreen => { grid with pixels := grid.pixels.map undoFromGreen }
  | .palette bits width colours =>
      .ofPlaces width grid.height (coloured bits colours grid)

/-- What has been taken from the green channel is given back. -/
theorem undoFromGreen_green (p : Pixel) : (undoFromGreen p).green = p.green := rfl

end Slidecast.Picture.Webp
