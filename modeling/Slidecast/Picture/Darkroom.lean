import Slidecast.Number.Bits
import Slidecast.Picture.Stored

/-!
# Darkrooms

How a picture is read from a file, how its size is changed and how a frame is stored as a file is not
up to this library: all of this is done in a darkroom.  A darkroom gives a picture exactly the size
that is asked for, whatever pixels it makes of it.

The standard darkroom is a plain one.  It takes for every pixel the one of the source that lies under
its centre, which leaves flat areas as they are, and stores frames without loss.
-/

set_option autoImplicit false

namespace Slidecast.Picture

open Number Files

/-- What is stored of a frame, and whether it is all of it. -/
structure Print where
  content : Content
  isWhole : Bool

/-- What is done to pictures besides cutting them and laying them on a background. -/
structure Darkroom where
  /-- The picture that a file holds, read the way that the path of the file tells. -/
  decode : Path → Content → Option Raster
  /-- The picture in another size. -/
  resize : Raster → Nat → Nat → Raster
  /-- What is stored of a frame, with how much of it is kept, from 1 to 100. -/
  encode : Nat → Raster → Print
  width_resize : ∀ r width height, (resize r width height).width = width
  height_resize : ∀ r width height, (resize r width height).height = height

/-- The longest side of a picture that can be stored. -/
def longestStoredSide : Nat := largest 16

/-- Whether a side of a picture can be stored. -/
def isStorable (side : Nat) : Bool := 0 < side && side ≤ longestStoredSide

/-- What is there of a frame that has been begun and cannot be finished: the mark in front of
every stored picture. -/
def begun : Content := .bytes [0xFF, 0xD8]

namespace Darkroom

/-- The picture in a file, if it is stored as the name of the file tells. -/
def standardDecode (p : Path) (content : Content) : Option Raster :=
  (encodingOf? p).bind fun encoding => storedRaster? encoding content

/-- Stores a frame as it is.  A frame with a side that is too short or too long is begun before that
is found out. -/
def standardEncode (_quality : Nat) (frame : Raster) : Print :=
  if isStorable frame.width && isStorable frame.height then ⟨.picture .jpeg frame, true⟩
  else ⟨begun, false⟩

/-- The standard darkroom. -/
def standard : Darkroom where
  decode := standardDecode
  resize := Raster.resize
  encode := standardEncode
  width_resize _ _ _ := rfl
  height_resize _ _ _ := rfl

instance : Inhabited Darkroom := ⟨standard⟩

end Darkroom

end Slidecast.Picture
