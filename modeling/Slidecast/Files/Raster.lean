/-!
# Rasters

A raster is a rectangle of pixels.  Cutting out a window, changing the size and laying a
transparent picture on a background are functions of rasters; a change of size takes for every
pixel the one of the source that lies under its centre, which leaves flat areas as they are.
-/

set_option autoImplicit false

namespace Slidecast.Files

/-- The channels of a pixel, each from 0 to 255; an alpha of 255 is opaque. -/
structure Pixel where
  red : Nat
  green : Nat
  blue : Nat
  alpha : Nat
  deriving DecidableEq

/-- A rectangle of pixels, with `(0, 0)` at the top left. -/
structure Raster where
  width : Nat
  height : Nat
  pixel : Nat → Nat → Pixel

/-- A colour without transparency. -/
structure Colour where
  red : Nat
  green : Nat
  blue : Nat
  deriving DecidableEq, Inhabited

namespace Raster

/-- The part of a raster from `(x, y)` with the given size. -/
def window (r : Raster) (x y width height : Nat) : Raster where
  width := width
  height := height
  pixel i j := r.pixel (x + i) (y + j)

/-- The coordinate of the source under the centre of pixel `i`, when `source` pixels are shown
on `target` pixels. -/
def underCentre (source target i : Nat) : Nat := (2 * i + 1) * source / (2 * target)

/-- The raster at another size. -/
def resize (r : Raster) (width height : Nat) : Raster where
  width := width
  height := height
  pixel i j := r.pixel (underCentre r.width width i) (underCentre r.height height j)

/-- A channel that shines through to a background, rounded to the nearest value. -/
def blend (alpha channel background : Nat) : Nat :=
  (channel * alpha + background * (255 - alpha) + 127) / 255

/-- The raster laid on a background, without transparency. -/
def flatten (r : Raster) (background : Colour) : Raster where
  width := r.width
  height := r.height
  pixel i j :=
    let p := r.pixel i j
    { red := blend p.alpha p.red background.red
      green := blend p.alpha p.green background.green
      blue := blend p.alpha p.blue background.blue
      alpha := 255 }

/-- Opaque pixels are not changed by a background. -/
theorem blend_opaque (channel background : Nat) : blend 255 channel background = channel := by
  unfold blend
  omega

end Raster

end Slidecast.Files
