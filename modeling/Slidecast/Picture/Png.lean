import Slidecast.Files.Raster
import Slidecast.Picture.Checksum
import Slidecast.Picture.Deflate

/-!
# Packed rasters in chunks

A file of this kind is a row of chunks, each with its length, its kind, its data and a checksum.
The first chunk tells the size of the raster and how its samples are kept; others tell colours; the
rows of samples are packed in the data of a run of chunks.  In front of each row stands a filter:
the way in which its bytes have been taken from those around them.
-/

set_option autoImplicit false

namespace Slidecast.Picture.Png

open Files Number

/-- What the samples of a pixel are. -/
inductive Samples where
  | grey
  | colour
  | palette
  | greyAlpha
  | colourAlpha
  deriving DecidableEq

/-- How many samples a pixel has. -/
def Samples.count : Samples → Nat
  | .grey | .palette => 1
  | .greyAlpha => 2
  | .colour => 3
  | .colourAlpha => 4

/-- The samples that a number stands for. -/
def Samples.ofNumber? : Nat → Option Samples
  | 0 => some .grey
  | 2 => some .colour
  | 3 => some .palette
  | 4 => some .greyAlpha
  | 6 => some .colourAlpha
  | _ => none

/-- Of how many bits a sample may be. -/
def Samples.depths : Samples → List Nat
  | .grey => [1, 2, 4, 8, 16]
  | .palette => [1, 2, 4, 8]
  | .colour | .greyAlpha | .colourAlpha => [8, 16]

/-- How the samples of a raster are kept. -/
structure Layout where
  width : Nat
  height : Nat
  /-- The bits of a sample. -/
  depth : Nat
  samples : Samples
  /-- Whether the raster comes in seven passes, each finer than the one before. -/
  interlaced : Bool

/-- How many bytes so many pixels of a row take. -/
def Layout.rowLength (layout : Layout) (pixels : Nat) : Nat :=
  (pixels * layout.samples.count * layout.depth + 7) / 8

/-- How many bytes lie between the same samples of neighbours; at least one. -/
def Layout.step (layout : Layout) : Nat := max 1 (layout.samples.count * layout.depth / 8)

/-- The largest size, and the largest length of a chunk. -/
def mostSize : Nat := largest 31

/-- The layout that the data of the first chunk tell. -/
def Layout.ofData? (data : Array UInt8) : Option Layout := do
  guard (data.size = 13)
  let width ← big? data 0 4
  let height ← big? data 4 4
  let depth ← big? data 8 1
  let samples ← Samples.ofNumber? (← big? data 9 1)
  let packing ← big? data 10 2
  let interlacing ← big? data 12 1
  guard (0 < width ∧ 0 < height ∧ width ≤ mostSize ∧ height ≤ mostSize)
  guard (samples.depths.contains depth)
  guard (packing = 0 ∧ interlacing ≤ 1)
  some { width, height, depth, samples, interlaced := interlacing = 1 }

/-! ## Chunks -/

/-- A chunk of a file. -/
structure Chunk where
  kind : List UInt8
  data : Array UInt8
  /-- Whether the checksum is right. -/
  isSound : Bool

/-- The bytes at the beginning of a file. -/
def signature : List UInt8 := [0x89, 0x50, 0x4E, 0x47, 0x0D, 0x0A, 0x1A, 0x0A]

/-- The kinds of chunks by their four letters. -/
def firstKind : List UInt8 := "IHDR".toUTF8.toList

@[inherit_doc firstKind]
def paletteKind : List UInt8 := "PLTE".toUTF8.toList

@[inherit_doc firstKind]
def alphaKind : List UInt8 := "tRNS".toUTF8.toList

@[inherit_doc firstKind]
def rowsKind : List UInt8 := "IDAT".toUTF8.toList

@[inherit_doc firstKind]
def lastKind : List UInt8 := "IEND".toUTF8.toList

/-- The length and the kind of the chunk at a place. -/
def heading? (bytes : Array UInt8) (place : Nat) : Option (Nat × List UInt8) := do
  let length ← big? bytes place 4
  let kind ← slice? bytes (place + 4) 4
  guard (length ≤ mostSize)
  some (length, kind)

/-- The chunk at a place, and the place behind it. -/
def chunk? (bytes : Array UInt8) (place : Nat) : Option (Chunk × Nat) := do
  let (length, kind) ← heading? bytes place
  let data ← slice? bytes (place + 8) length
  let check ← big? bytes (place + 8 + length) 4
  some ({ kind, data := data.toArray, isSound := Checksum.checksum (kind ++ data) = check },
    place + 12 + length)

/-- Whether a reader has to understand a chunk: its kind begins with a capital letter. -/
def isCritical (kind : List UInt8) : Bool := kind.head?.any fun b => b.toNat / 32 % 2 = 0

/-- The colours that stand in front of the rows. -/
structure Colours where
  palette : Option (Array UInt8) := none
  alpha : Option (Array UInt8) := none

/-- The colours with what a chunk tells of them; an unknown chunk tells nothing, and neither does
a damaged one that need not be understood. -/
def Colours.add? (colours : Colours) (chunk : Chunk) : Option Colours :=
  if !chunk.isSound then if isCritical chunk.kind then none else some colours
  else if chunk.kind = firstKind ∨ chunk.kind = lastKind then none
  else if chunk.kind = paletteKind then
    if colours.palette.isSome ∨ chunk.data.size % 3 ≠ 0 then none
    else some { colours with palette := some chunk.data }
  else if chunk.kind = alphaKind then some { colours with alpha := some chunk.data }
  else some colours

/-- The colours that the chunks from a place on tell, and the place of the rows. -/
def colours? (bytes : Array UInt8) : Nat → Nat → Colours → Option (Colours × Nat)
  | 0, _, _ => none
  | fuel + 1, place, colours => do
      let (_, kind) ← heading? bytes place
      if kind = rowsKind then some (colours, place)
      else
        let (chunk, place) ← chunk? bytes place
        let colours ← colours.add? chunk
        colours? bytes fuel place colours

/-- The data of the chunks with rows from a place on; a chunk of another kind follows them. -/
def rowData? (bytes : Array UInt8) : Nat → Nat → Option (List UInt8)
  | 0, _ => none
  | fuel + 1, place => do
      let (_, kind) ← heading? bytes place
      if kind = rowsKind then
        let (chunk, place) ← chunk? bytes place
        guard chunk.isSound
        let more ← rowData? bytes fuel place
        some (chunk.data.toList ++ more)
      else some []

/-! ## Rows -/

/-- The one of three neighbours that is nearest to what they foretell: the left one and the upper
one added, without the one between them. -/
def foretold (left upper between : Nat) : Nat :=
  let target : Int := left + upper - between
  let far (n : Nat) : Nat := (target - n).natAbs
  if far left ≤ far upper ∧ far left ≤ far between then left
  else if far upper ≤ far between then upper
  else between

/-- What a filter has taken away from a byte. -/
def filtered? (filter left upper between : Nat) : Option Nat :=
  match filter with
  | 0 => some 0
  | 1 => some left
  | 2 => some upper
  | 3 => some ((left + upper) / 2)
  | 4 => some (foretold left upper between)
  | _ => none

/-- The bytes of a row without their filter, below another row. -/
def unfiltered? (filter step : Nat) (upperRow : Array UInt8) (bytes : List UInt8) :
    Option (Array UInt8) :=
  bytes.foldlM
    (fun row b => do
      let byte (row : Array UInt8) (place : Nat) : Nat := ((row[place]?).getD 0).toNat
      let before (other : Array UInt8) : Nat :=
        if step ≤ row.size then byte other (row.size - step) else 0
      let left := before row
      let upper := byte upperRow row.size
      let between := before upperRow
      let taken ← filtered? filter left upper between
      some (row.push (UInt8.ofNat (b.toNat + taken))))
    #[]

/-- So many rows of the given length from a place on, and the place behind them; an empty row has
no filter. -/
def rows? (step length : Nat) (data : Array UInt8) :
    Nat → Nat → Array UInt8 → Option (List (Array UInt8) × Nat)
  | 0, place, _ => some ([], place)
  | count + 1, place, upperRow => do
      let filter ← big? data place 1
      let bytes ← slice? data (place + 1) length
      let row ← unfiltered? filter step upperRow bytes
      let (rows, place) ← rows? step length data count (place + 1 + length) row
      some (row :: rows, place)

/-! ## Passes -/

/-- A pass: the pixels from a first column and row on, in steps of several columns and rows. -/
structure Pass where
  column : Nat
  row : Nat
  columnStep : Nat
  rowStep : Nat

/-- The passes of an interlaced raster. -/
def interlacedPasses : List Pass :=
  [ ⟨0, 0, 8, 8⟩, ⟨4, 0, 8, 8⟩, ⟨0, 4, 4, 8⟩, ⟨2, 0, 4, 4⟩, ⟨0, 2, 2, 4⟩, ⟨1, 0, 2, 2⟩,
    ⟨0, 1, 1, 2⟩ ]

/-- The passes of a layout. -/
def Layout.passes (layout : Layout) : List Pass :=
  if layout.interlaced then interlacedPasses else [⟨0, 0, 1, 1⟩]

/-- How many places there are below a size, from a first one on in steps. -/
def placesBelow (size first step : Nat) : Nat := (size - first + step - 1) / step

/-- The rows of some passes from a place on. -/
def passRows? (layout : Layout) (data : Array UInt8) :
    List Pass → Nat → Option (List (Pass × Array (Array UInt8)))
  | [], _ => some []
  | pass :: passes, place => do
      let width := placesBelow layout.width pass.column pass.columnStep
      let height := if width = 0 then 0 else placesBelow layout.height pass.row pass.rowStep
      let (rows, place) ← rows? layout.step (layout.rowLength width) data height place #[]
      let others ← passRows? layout data passes place
      some ((pass, rows.toArray) :: others)

/-- Whether a pixel belongs to a pass. -/
def Pass.has (pass : Pass) (x y : Nat) : Bool :=
  pass.column ≤ x && pass.row ≤ y && (x - pass.column) % pass.columnStep = 0 &&
    (y - pass.row) % pass.rowStep = 0

/-! ## Pixels -/

/-- A sample of a row. -/
def sample (row : Array UInt8) (depth place : Nat) : Nat :=
  if depth < 8 then
    let bit := place * depth
    ((row[bit / 8]?).getD 0).toNat / twoTo (8 - depth - bit % 8) % twoTo depth
  else (big? row (place * (depth / 8)) (depth / 8)).getD 0

/-- A sample as a channel from 0 to 255, rounded to the nearest value. -/
def channel (depth value : Nat) : Nat := (value * 255 + largest depth / 2) / largest depth

/-- The pixel that samples stand for. -/
def pixelOf (layout : Layout) (colours : Colours) (samples : List Nat) : Pixel :=
  let alphas := (colours.alpha.getD #[])
  let shade (n : Nat) : Nat := channel layout.depth ((samples[n]?).getD 0)
  let key (n : Nat) : Option Nat := (big? alphas (2 * n) 2).map (· % twoTo (max 8 layout.depth))
  let keyed : Nat :=
    if colours.alpha.isSome ∧ (samples.zipIdx.all fun (value, n) => key n = some value) then 0
    else 255
  match layout.samples with
  | .grey => ⟨shade 0, shade 0, shade 0, keyed⟩
  | .greyAlpha => ⟨shade 0, shade 0, shade 0, shade 1⟩
  | .colour => ⟨shade 0, shade 1, shade 2, keyed⟩
  | .colourAlpha => ⟨shade 0, shade 1, shade 2, shade 3⟩
  | .palette =>
      let number := (samples[0]?).getD 0
      let part (k : Nat) : Nat :=
        (((colours.palette.getD #[])[3 * number + k]?).getD 0).toNat
      ⟨part 0, part 1, part 2, ((alphas[number]?).getD 255).toNat⟩

/-- The pixel at a place, from the rows of the passes. -/
def pixelAt (layout : Layout) (colours : Colours) (passes : List (Pass × Array (Array UInt8)))
    (x y : Nat) : Pixel :=
  match passes.find? fun (pass, _) => pass.has x y with
  | none => ⟨0, 0, 0, 0⟩
  | some (pass, rows) =>
      let row := (rows[(y - pass.row) / pass.rowStep]?).getD #[]
      let first := (x - pass.column) / pass.columnStep * layout.samples.count
      pixelOf layout colours
        ((List.range layout.samples.count).map fun n => sample row layout.depth (first + n))

/-- Whether the chunk with alphas, if there is one, suits the samples. -/
def alphaSuits (layout : Layout) (colours : Colours) : Bool :=
  match colours.alpha, layout.samples with
  | none, _ => true
  | some data, .grey => 2 ≤ data.size
  | some data, .colour => 6 ≤ data.size
  | some _, .palette => true
  | some _, .greyAlpha | some _, .colourAlpha => false

/-- The raster of a file, if the bytes are one. -/
def read? (bytes : Array UInt8) : Option Raster := do
  guard (slice? bytes 0 8 = some signature)
  let (first, place) ← chunk? bytes 8
  guard (first.kind = firstKind ∧ first.isSound)
  let layout ← Layout.ofData? first.data
  let (colours, place) ← colours? bytes bytes.size place {}
  guard (layout.samples ≠ .palette ∨ colours.palette.isSome)
  guard (alphaSuits layout colours)
  let data ← Deflate.unpacked? (← rowData? bytes bytes.size place)
  let passes ← passRows? layout data layout.passes 0
  some
    { width := layout.width
      height := layout.height
      pixel := pixelAt layout colours passes }

end Slidecast.Picture.Png
