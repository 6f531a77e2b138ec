import Slidecast.Files.Raster
import Slidecast.Picture.Octets
import Slidecast.Picture.Bitmap.Stretches

/-!
# Bitmaps

A bitmap is a file in which pixels follow one another in rows, from the lowest row to the highest
one or the other way round.  A pixel is a number of one to thirty-two bits; it tells a colour of a
palette or holds the channels in some of its bits.  Each row is filled up to a multiple of four
bytes.
-/

set_option autoImplicit false

namespace Slidecast.Picture.Bitmap

open Files Number

/-- Which bits of a pixel hold its channels; no bits for a channel that is missing. -/
structure Masks where
  red : Nat
  green : Nat
  blue : Nat
  alpha : Nat := 0

/-- What the number of a pixel stands for. -/
inductive Colouring where
  | palette (colours : Array Pixel)
  | channels (masks : Masks)

/-- How the pixels of a bitmap are kept. -/
structure Layout where
  width : Nat
  height : Nat
  downward : Bool := false
  /-- The bits of a pixel. -/
  depth : Nat
  colouring : Colouring
  /-- Where the pixels begin. -/
  start : Nat
  /-- Whether the pixels are kept as stretches. -/
  inStretches : Bool := false

/-- How many bytes a row of pixels takes. -/
def rowLength (width depth : Nat) : Nat := (width * depth + 31) / 32 * 4

/-- How far the lowest bit of a mask lies from the lowest bit of all. -/
def shiftOf : Nat → Nat → Nat
  | 0, _ => 0
  | more + 1, mask => if mask = 0 ∨ mask % 2 = 1 then 0 else shiftOf more (mask / 2) + 1

/-- The value of a channel from 0 to 255. -/
def channel (mask value : Nat) : Nat :=
  let unit := twoTo (shiftOf 32 mask)
  let most := mask / unit
  if most = 0 then 0 else (value &&& mask) / unit * 255 / most

/-- The colour that the number of a pixel stands for. -/
def Colouring.pixel (colouring : Colouring) (value : Nat) : Pixel :=
  match colouring with
  | .palette colours => (colours[value]?).getD ⟨0, 0, 0, 255⟩
  | .channels masks =>
      { red := channel masks.red value
        green := channel masks.green value
        blue := channel masks.blue value
        alpha := if masks.alpha = 0 then 255 else channel masks.alpha value }

/-- The number of the pixel at a place of a row. -/
def pixelValue (bytes : Array UInt8) (row depth x : Nat) : Nat :=
  if depth < 8 then
    let bit := x * depth
    let byte := ((bytes[row + bit / 8]?).getD 0).toNat
    byte / twoTo (8 - depth - bit % 8) % twoTo depth
  else (little? bytes (row + x * (depth / 8)) (depth / 8)).getD 0

/-- The row of a picture that a row of a bitmap is. -/
def Layout.rowOf (layout : Layout) (y : Nat) : Nat :=
  if layout.downward then y else layout.height - 1 - y

/-- The raster of stretches; where there is none, it is black. -/
def Layout.stretchedRaster? (layout : Layout) (bytes : Array UInt8) : Option Raster := do
  let stretches ←
    stretches? bytes layout.depth layout.width layout.height (bytes.size + 1) layout.start 0 0 []
  some
    { width := layout.width
      height := layout.height
      pixel := fun x y =>
        match stretches.find? (·.has x (layout.rowOf y)) with
        | some stretch =>
            layout.colouring.pixel ((stretch.numbers[x - stretch.column]?).getD 0)
        | none => ⟨0, 0, 0, 255⟩ }

/-- The raster of the pixels in a row of bytes, if all of them are there. -/
def Layout.plainRaster? (layout : Layout) (bytes : Array UInt8) : Option Raster :=
  let length := rowLength layout.width layout.depth
  if layout.start + layout.height * length ≤ bytes.size then
    some
      { width := layout.width
        height := layout.height
        pixel := fun x y =>
          layout.colouring.pixel
            (pixelValue bytes (layout.start + layout.rowOf y * length) layout.depth x) }
  else none

/-- The raster of a layout, if the bytes tell all of it. -/
def Layout.raster? (layout : Layout) (bytes : Array UInt8) : Option Raster :=
  if layout.inStretches then layout.stretchedRaster? bytes else layout.plainRaster? bytes

/-! ## Reading -/

/-- The colours of a palette; each of them takes the given count of bytes. -/
def palette? (bytes : Array UInt8) (start step count : Nat) : Option (Array Pixel) := do
  let _ ← slice? bytes start (step * count)
  let colour (n : Nat) : Pixel :=
    let part (k : Nat) : Nat := ((bytes[start + step * n + k]?).getD 0).toNat
    ⟨part 2, part 1, part 0, 255⟩
  some ((List.range count).map colour).toArray

/-- The channels of pixels without masks, by their depth. -/
def plainMasks? : Nat → Option Masks
  | 16 => some ⟨0x7C00, 0x3E0, 0x1F, 0⟩
  | 24 | 32 => some ⟨0xFF0000, 0xFF00, 0xFF, 0⟩
  | _ => none

/-- The longest side of a bitmap. -/
def longestSide : Nat := 65535

/-- The layout of a bitmap with the short kind of header. -/
def oldLayout? (bytes : Array UInt8) (start : Nat) : Option Layout := do
  let width ← little? bytes 18 2
  let height ← little? bytes 20 2
  let planes ← little? bytes 22 2
  let depth ← little? bytes 24 2
  guard (planes = 1)
  if depth = 24 then
    let masks ← plainMasks? 24
    some { width, height, depth, start, colouring := .channels masks }
  else
    guard (depth = 1 ∨ depth = 4 ∨ depth = 8)
    let colours ← palette? bytes 26 3 (twoTo depth)
    some { width, height, depth, start, colouring := .palette colours }

/-- The layout of a bitmap with a header of the given length. -/
def newLayout? (bytes : Array UInt8) (start header : Nat) : Option Layout := do
  let width := signed 32 (← little? bytes 18 4)
  let height := signed 32 (← little? bytes 22 4)
  let planes ← little? bytes 26 2
  let depth ← little? bytes 28 2
  let packing ← little? bytes 30 4
  let colourCount ← little? bytes 46 4
  let _ ← slice? bytes 50 4
  guard (planes = 1 ∧ 0 ≤ width ∧ width.toNat ≤ longestSide ∧ height.natAbs ≤ longestSide)
  let layout (colouring : Colouring) : Layout :=
    { width := width.toNat, height := height.natAbs, downward := height < 0, depth, start,
      colouring, inStretches := packing = 1 ∨ packing = 2 }
  if packing = 3 then
    guard (depth = 16 ∨ depth = 32)
    let red ← little? bytes 54 4
    let green ← little? bytes 58 4
    let blue ← little? bytes 62 4
    let alpha ← if header ≤ 52 then some 0 else little? bytes 66 4
    some (layout (.channels ⟨red, green, blue, alpha⟩))
  else
    guard (packing = 0 ∨ 0 ≤ height ∧ (packing = 1 ∧ depth = 8 ∨ packing = 2 ∧ depth = 4))
    match plainMasks? depth with
    | some masks => some (layout (.channels masks))
    | none =>
        guard (depth = 1 ∨ depth = 2 ∨ depth = 4 ∨ depth = 8)
        guard (colourCount ≤ twoTo depth)
        let count := if colourCount = 0 then twoTo depth else colourCount
        let colours ← palette? bytes (14 + header) 4 count
        some (layout (.palette colours))

/-- The raster of a bitmap, if the bytes are one. -/
def read? (bytes : Array UInt8) : Option Raster := do
  guard (slice? bytes 0 2 = some [0x42, 0x4D])
  let start ← little? bytes 10 4
  let header ← little? bytes 14 4
  let layout ←
    if header = 12 then oldLayout? bytes start
    else if [40, 52, 56, 108, 124].contains header then newLayout? bytes start header
    else none
  layout.raster? bytes

/-! ## Writing -/

/-- The bytes that stand in front of the pixels, for a picture without transparency. -/
def header (width height : Nat) : List UInt8 :=
  let size := rowLength width 24 * height
  [0x42, 0x4D] ++ little 4 (54 + size) ++ little 4 0 ++ little 4 54 ++
    little 4 40 ++ little 4 width ++ little 4 height ++ little 2 1 ++ little 2 24 ++ little 4 0 ++
    little 4 size ++ little 4 0 ++ little 4 0 ++ little 4 0 ++ little 4 0

/-- The bytes of a row of pixels. -/
def rowBytes (r : Raster) (y : Nat) : List UInt8 :=
  let pixels := (List.range r.width).flatMap fun x =>
    let p := r.pixel x y
    [UInt8.ofNat p.blue, UInt8.ofNat p.green, UInt8.ofNat p.red]
  pixels ++ List.replicate (rowLength r.width 24 - 3 * r.width) 0

/-- The bitmap of a raster, without its transparency. -/
def write (r : Raster) : List UInt8 :=
  header r.width r.height ++ (List.range r.height).reverse.flatMap (rowBytes r)

end Slidecast.Picture.Bitmap
