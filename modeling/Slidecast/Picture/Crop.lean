import Slidecast.Number.Arithmetic

/-!
# Cutting pictures to a shape

A picture is cut to the shape of a target before its size is changed.  The cut keeps the middle:
a picture that is wider than the target loses as much on the left as on the right, any other one
as much at the top as at the bottom.
-/

set_option autoImplicit false

namespace Slidecast.Picture

open Number

/-- A rectangle inside a picture. -/
structure Region where
  x : Nat
  y : Nat
  width : Nat
  height : Nat
  deriving DecidableEq

/-- Whether the region is the whole of a picture. -/
def Region.isWhole (r : Region) (width height : Nat) : Bool :=
  r.x == 0 && r.y == 0 && r.width == width && r.height == height

/-- The largest side of a picture. -/
def longestSide : Nat := largest 32

/-- The ratio of a width to a height; no height counts as one. -/
def ratio (width height : Nat) : Double := Binary.ofNat width / Binary.ofNat (max height 1)

/-- The whole part of a computed side, between one and the side of the picture. -/
def sideOf (computed : Double) (side : Nat) : Nat :=
  min (max (computed.truncate longestSide) 1) (max side 1)

/-- The region in the middle of a picture that has the shape of a target. -/
def centred (width height targetWidth targetHeight : Nat) : Region :=
  let target := ratio targetWidth targetHeight
  if target < ratio width height then
    let kept := sideOf (target * Binary.ofNat height) width
    ⟨(width - kept) / 2, 0, kept, height⟩
  else
    let kept := sideOf (Binary.ofNat width / target) height
    ⟨0, (height - kept) / 2, width, kept⟩

end Slidecast.Picture
