import Slidecast.Picture.Octets
import Slidecast.Picture.Webp.Lossy
import Slidecast.Picture.Webp.Veil

/-!
# Rasters in a container

The pixels of a file of this kind stand in a chunk of a container, with or without loss.  Other
chunks may stand beside it; the first one then tells the size of the canvas and what else there is.
Of a row of moving rasters the first one counts, laid on a transparent canvas.
-/

set_option autoImplicit false

namespace Slidecast.Picture.Webp

open Files

/-! ## Chunks -/

/-- What chunks are for. -/
inductive ChunkKind where
  | lossy
  | lossless
  | canvas
  | veil
  /-- What is told of all moving rasters. -/
  | motion
  /-- One of the moving rasters. -/
  | step
  /-- Words about the camera. -/
  | camera
  /-- Words about the raster. -/
  | words
  | other
  deriving DecidableEq

/-- The kinds of chunks by their four letters. -/
def chunkKinds : List (String × ChunkKind) :=
  [ ("VP8 ", .lossy), ("VP8L", .lossless), ("VP8X", .canvas), ("ALPH", .veil), ("ANIM", .motion),
    ("ANMF", .step), ("EXIF", .camera), ("XMP ", .words) ]

/-- The kind of a chunk with some letters. -/
def ChunkKind.ofLetters (letters : List UInt8) : ChunkKind :=
  match chunkKinds.find? fun (name, _) => name.toUTF8.toList = letters with
  | some (_, kind) => kind
  | none => .other

/-- A chunk: its kind, the length that it is told to have, the bytes of it that are there, and the
place behind it. -/
structure Chunk where
  kind : ChunkKind
  length : Nat
  data : Array UInt8
  behind : Nat

/-- The length of a chunk with the byte that makes it even. -/
def Chunk.room (chunk : Chunk) : Nat := chunk.length + chunk.length % 2

/-- The chunk at a place. -/
def chunk? (bytes : Array UInt8) (place : Nat) : Option Chunk := do
  let letters ← slice? bytes place 4
  let length ← little? bytes (place + 4) 4
  some
    { kind := .ofLetters letters
      length
      data := bytes.extract (place + 8) (place + 8 + length)
      behind := place + 8 + length + length % 2 }

/-- The chunks from a place on that begin before another one. -/
def chunksBefore (bytes : Array UInt8) (last : Nat) : Nat → Nat → List Chunk
  | 0, _ => []
  | fuel + 1, place =>
      if last ≤ place then []
      else match chunk? bytes place with
        | some chunk => chunk :: chunksBefore bytes last fuel chunk.behind
        | none => []

/-- The first chunk of a kind. -/
def firstOf? (chunks : List Chunk) (kind : ChunkKind) : Option Chunk :=
  chunks.find? (·.kind = kind)

/-! ## Pixels -/

/-- A raster without transparency. -/
def opaqueRaster (raster : Raster) : Raster :=
  { raster with pixel := fun x y => { raster.pixel x y with alpha := 255 } }

/-- A raster, if it has a size. -/
def ofSize? (width height : Nat) (raster : Raster) : Option Raster :=
  if raster.width = width ∧ raster.height = height then some raster else none

/-- The raster of a chunk without loss, if it has a size. -/
def losslessOf? (width height : Nat) (chunk : Chunk) : Option Raster := do
  let (grid, _) ← lossless? chunk.data.toList
  ofSize? width height grid.toRaster

/-- The raster of a chunk with loss, if it has a size. -/
def lossyOf? (width height : Nat) (chunk : Chunk) : Option Raster := do
  ofSize? width height (← lossy? chunk.data)

/-- The raster of a chunk with loss under the veil of another one. -/
def veiledOf? (width height : Nat) (veil chunk : Chunk) : Option Raster := do
  let raster ← lossyOf? width height chunk
  some (veiled raster (← veil? width height veil.data.toList))

/-! ## Canvases -/

/-- What the first chunk of several tells. -/
structure Canvas where
  width : Nat
  height : Nat
  hasVeil : Bool
  moves : Bool
  hasCamera : Bool
  hasWords : Bool

/-- The canvas that some data tell. -/
def canvas? (data : Array UInt8) : Option Canvas := do
  let marks ← little? data 0 1
  let width ← little? data 4 3
  let height ← little? data 7 3
  some
    { width := width + 1
      height := height + 1
      hasVeil := marks.testBit 4
      moves := marks.testBit 1
      hasCamera := marks.testBit 3
      hasWords := marks.testBit 2 }

/-- A raster that does not move. -/
def stillRaster? (canvas : Canvas) (chunks : List Chunk) : Option Raster :=
  match firstOf? chunks .lossy, firstOf? chunks .lossless with
  | none, some chunk => losslessOf? canvas.width canvas.height chunk
  | some chunk, none =>
      if canvas.hasVeil then do
        veiledOf? canvas.width canvas.height (← firstOf? chunks .veil) chunk
      else lossyOf? canvas.width canvas.height chunk
  | _, _ => none

/-- The raster in a step of a size, from its first chunk on, and whether it may be transparent. -/
def stepRaster? (width height : Nat) (step : Chunk) : Option Raster := do
  let chunk ← chunk? step.data 16
  guard (chunk.room + 24 ≤ step.length)
  match chunk.kind with
  | .lossy => lossyOf? width height chunk
  | .lossless => losslessOf? width height chunk
  | .veil => do
      guard (chunk.room + 32 ≤ step.length)
      let behind ← chunk? step.data chunk.behind
      guard (chunk.length + behind.length + 32 ≤ step.length)
      veiledOf? width height chunk behind
  | _ => none

/-- The canvas with the raster of a step.  A clear pixel of a step that is blended has no
colour. -/
def movingRaster? (canvas : Canvas) (step : Chunk) : Option Raster := do
  guard (32 ≤ step.length)
  let left := 2 * (← little? step.data 0 3)
  let top := 2 * (← little? step.data 3 3)
  let width := (← little? step.data 6 3) + 1
  let height := (← little? step.data 9 3) + 1
  let marks ← little? step.data 15 1
  guard (left + width ≤ canvas.width ∧ top + height ≤ canvas.height)
  let raster ← stepRaster? width height step
  let isBlended := !marks.testBit 1
  some
    { width := canvas.width
      height := canvas.height
      pixel := fun x y =>
        if left ≤ x ∧ x < left + width ∧ top ≤ y ∧ y < top + height then
          let p := raster.pixel (x - left) (y - top)
          if isBlended ∧ p.alpha = 0 then nothing else p
        else nothing }

/-- The raster of a canvas and the chunks behind it.  What the canvas tells has to be there. -/
def onCanvas? (canvas : Canvas) (chunks : List Chunk) : Option Raster := do
  let has (kind : ChunkKind) : Bool := (firstOf? chunks kind).isSome
  guard (chunks.all fun chunk => chunk.kind ≠ .step ∨ 24 ≤ chunk.length)
  guard (canvas.hasCamera → has .camera)
  guard (canvas.hasWords → has .words)
  let raster ←
    if canvas.moves then do
      let motion ← firstOf? chunks .motion
      guard (motion.length = 6 ∧ motion.data.size = 6)
      movingRaster? canvas (← firstOf? chunks .step)
    else stillRaster? canvas chunks
  some (if canvas.hasVeil then raster else opaqueRaster raster)

/-! ## Files -/

/-- The raster of a file, if the bytes are one. -/
def read? (bytes : Array UInt8) : Option Raster := do
  guard (slice? bytes 0 4 = some "RIFF".toUTF8.toList)
  let length ← little? bytes 4 4
  guard (slice? bytes 8 4 = some "WEBP".toUTF8.toList)
  let chunk ← chunk? bytes 12
  match chunk.kind with
  | .lossy => lossy? chunk.data
  | .lossless => do
      let (grid, hasAlpha) ← lossless? chunk.data.toList
      some (if hasAlpha then grid.toRaster else opaqueRaster grid.toRaster)
  | .canvas =>
      onCanvas? (← canvas? (bytes.extract 20 bytes.size))
        (chunksBefore bytes (chunk.behind + (length - 12)) bytes.size chunk.behind)
  | _ => none

end Slidecast.Picture.Webp
