import Slidecast.Files.Raster
import Slidecast.Picture.Cosine
import Slidecast.Picture.Octets
import Slidecast.Picture.Jpeg.Scan

/-!
# Rasters of waves

A file of this kind is a row of segments.  Some of them hold tables: the steps in which the
strengths of waves are counted, and prefix codes.  One tells the planes of the raster, and scans
tell the strengths.  The channels of a pixel are a brightness and two differences of colour, or the
channels as they are.
-/

set_option autoImplicit false

namespace Slidecast.Picture.Jpeg

open Files Number

/-- The place in a square of each wave, in the order in which waves are told. -/
def waveOrder : Array Nat :=
  #[ 0, 1, 8, 16, 9, 2, 3, 10, 17, 24, 32, 25, 18, 11, 4, 5,
     12, 19, 26, 33, 40, 48, 41, 34, 27, 20, 13, 6, 7, 14, 21, 28,
     35, 42, 49, 56, 57, 50, 43, 36, 29, 22, 15, 23, 30, 37, 44, 51,
     58, 59, 52, 45, 38, 31, 39, 46, 53, 60, 61, 54, 47, 55, 62, 63 ]

/-- What the segments have told. -/
structure Knowledge where
  /-- The steps of waves, by the numbers of their tables. -/
  steps : List (Nat × Array Nat) := []
  /-- The codes, by their class and number. -/
  codes : List ((Nat × Nat) × PrefixCode) := []
  /-- How many groups a part of a scan has. -/
  interval : Nat := 0
  /-- How the channels have been mixed, if it is told. -/
  mixing : Option Nat := none
  layout : Option Layout := none
  /-- The strengths that scans have told. -/
  strengths : Option (Array Int) := none

/-! ## Tables -/

/-- So many numbers of the same count of bytes from a place on. -/
def numbers? (bytes : Array UInt8) (place size count : Nat) : Option (Array Nat) := do
  let _ ← slice? bytes place (size * count)
  some ((List.range count).map fun n => (big? bytes (place + size * n) size).getD 0).toArray

/-- The knowledge with the steps in some data. -/
def Knowledge.addSteps? (data : Array UInt8) : Nat → Nat → Knowledge → Option Knowledge
  | 0, _, _ => none
  | fuel + 1, place, knowledge =>
      if data.size ≤ place then some knowledge
      else do
        let head ← big? data place 1
        let size := if head / 16 = 0 then 1 else 2
        let steps ← numbers? data (place + 1) size waveCount
        addSteps? data fuel (place + 1 + size * waveCount)
          { knowledge with steps := (head % 16, steps) :: knowledge.steps }

/-- The knowledge with the codes in some data. -/
def Knowledge.addCodes? (data : Array UInt8) : Nat → Nat → Knowledge → Option Knowledge
  | 0, _, _ => none
  | fuel + 1, place, knowledge =>
      if data.size ≤ place then some knowledge
      else do
        let head ← big? data place 1
        let counts ← numbers? data (place + 1) 1 16
        let symbols ← numbers? data (place + 17) 1 counts.sum
        let code : PrefixCode := { counts := counts.toList, symbols }
        addCodes? data fuel (place + 17 + counts.sum)
          { knowledge with codes := ((head / 16, head % 16), code) :: knowledge.codes }

/-- The planes that some data tell from a place on. -/
def planes? (data : Array UInt8) : Nat → Nat → Option (List Plane)
  | 0, _ => some []
  | count + 1, place => do
      let name ← big? data place 1
      let sampling ← big? data (place + 1) 1
      let steps ← big? data (place + 2) 1
      guard (1 ≤ sampling / 16 ∧ sampling / 16 ≤ 4 ∧ 1 ≤ sampling % 16 ∧ sampling % 16 ≤ 4)
      let planes ← planes? data count (place + 3)
      some ({ name, across := sampling / 16, down := sampling % 16, steps } :: planes)

/-- The knowledge with the planes in some data. -/
def Knowledge.addLayout? (data : Array UInt8) (progressive : Bool) (knowledge : Knowledge) :
    Option Knowledge := do
  let depth ← big? data 0 1
  let height ← big? data 1 2
  let width ← big? data 3 2
  let count ← big? data 5 1
  guard (knowledge.layout.isNone ∧ depth = 8 ∧ 0 < width ∧ 0 < height)
  guard (count = 1 ∨ count = 3 ∨ count = 4)
  let planes ← planes? data count 6
  some { knowledge with layout := some { width, height, planes, progressive } }

/-! ## Scans -/

/-- The bytes of a scan from a place on, and the place behind it.  They come in parts with a mark
between them; the byte of marks is doubled by a zero where it is no mark. -/
def parts (bytes : Array UInt8) : Nat → Nat → List UInt8 → List (List UInt8) →
    List (List UInt8) × Nat
  | 0, place, part, done => ((part.reverse :: done).reverse, place)
  | fuel + 1, place, part, done =>
      match bytes[place]? with
      | none => ((part.reverse :: done).reverse, place)
      | some b =>
          if b = 0xFF then
            match bytes[place + 1]? with
            | some 0x00 => parts bytes fuel (place + 2) (b :: part) done
            | some 0xFF => parts bytes fuel (place + 1) part done
            | some mark =>
                if mark.toNat / 8 = 0xD0 / 8 then
                  parts bytes fuel (place + 2) [] (part.reverse :: done)
                else ((part.reverse :: done).reverse, place)
            | none => ((part.reverse :: done).reverse, place + 1)
          else parts bytes fuel (place + 1) (b :: part) done

/-- The planes of a scan with their codes, from a place of its data on. -/
def scanPlanes? (knowledge : Knowledge) (layout : Layout) (data : Array UInt8) :
    Nat → Nat → Option (List (Nat × PrefixCode × PrefixCode))
  | 0, _ => some []
  | count + 1, place => do
      let name ← big? data place 1
      let codes ← big? data (place + 1) 1
      let index ← layout.planes.findIdx? (·.name = name)
      let noCode : PrefixCode := { counts := [], symbols := #[] }
      let code (kind number : Nat) : PrefixCode :=
        (knowledge.codes.lookup (kind, number)).getD noCode
      let planes ← scanPlanes? knowledge layout data count (place + 2)
      some ((index, code 0 (codes / 16), code 1 (codes % 16)) :: planes)

/-- The knowledge after a scan with some data in front of it, and the place behind it. -/
def Knowledge.scan? (bytes data : Array UInt8) (place : Nat) (knowledge : Knowledge) :
    Option (Knowledge × Nat) := do
  let layout ← knowledge.layout
  let count ← big? data 0 1
  guard (1 ≤ count ∧ count ≤ layout.planes.length)
  let planes ← scanPlanes? knowledge layout data count 1
  let first ← big? data (2 * count + 1) 1
  let last ← big? data (2 * count + 2) 1
  let bits ← big? data (2 * count + 3) 1
  let scan : Scan :=
    if layout.progressive then
      { planes, first, last := min last (waveCount - 1), isFiner := 0 < bits / 16, low := bits % 16,
        progressive := true }
    else { planes, first := 0, last := waveCount - 1, isFiner := false, low := 0,
           progressive := false }
  let strengths := knowledge.strengths.getD (Array.replicate (waveCount * layout.allSquares) 0)
  let (parts, place) := parts bytes bytes.size place [] []
  some ({ knowledge with
          strengths := some (throughScan layout scan knowledge.interval strengths parts) }, place)

/-! ## Segments -/

/-- The knowledge with a segment of a kind; kinds without a meaning for the raster are passed
over. -/
def Knowledge.add? (kind : Nat) (data : Array UInt8) (knowledge : Knowledge) :
    Option Knowledge :=
  if kind = 0xDB then knowledge.addSteps? data (data.size + 1) 0
  else if kind = 0xC4 then knowledge.addCodes? data (data.size + 1) 0
  else if kind = 0xC0 ∨ kind = 0xC1 then knowledge.addLayout? data false
  else if kind = 0xC2 then knowledge.addLayout? data true
  else if 0xC3 ≤ kind ∧ kind ≤ 0xCF ∧ kind ≠ 0xC8 then none
  else if kind = 0xDD then do
    let interval ← big? data 0 2
    some { knowledge with interval }
  else if kind = 0xEE ∧ (slice? data 0 5) = some "Adobe".toUTF8.toList then
    some { knowledge with mixing := big? data 11 1 }
  else some knowledge

/-- What the segments from a place on tell, up to the end. -/
def knowledge? (bytes : Array UInt8) : Nat → Nat → Knowledge → Option Knowledge
  | 0, _, _ => none
  | fuel + 1, place, knowledge =>
      match bytes[place]?, bytes[place + 1]? with
      | some 0xFF, some kind =>
          if kind = 0xFF then knowledge? bytes fuel (place + 1) knowledge
          else if kind = 0xD9 then some knowledge
          else do
            let length ← big? bytes (place + 2) 2
            guard (2 ≤ length)
            let data := (← slice? bytes (place + 4) (length - 2)).toArray
            let behind := place + 2 + length
            if kind = 0xDA then
              let (knowledge, behind) ← knowledge.scan? bytes data behind
              knowledge? bytes fuel behind knowledge
            else
              let knowledge ← knowledge.add? kind.toNat data
              knowledge? bytes fuel behind knowledge
      | some _, _ => if knowledge.strengths.isSome then knowledge? bytes fuel (place + 1) knowledge
          else none
      | none, _ => some knowledge

/-! ## Pixels -/

/-- A number, moved to the nearest one from 0 to 255. -/
def byteOf (n : Int) : Nat := min n.toNat 255

/-- The samples of a square whose strengths begin at a place. -/
def samples (steps : Array Nat) (strengths : Array Int) (start : Nat) : Array Nat :=
  let scaled := (List.range waveCount).foldl
    (fun (scaled : Array Int) n =>
      let strength := (strengths[start + n]?).getD 0
      if strength = 0 then scaled
      else
        scaled.setIfInBounds ((waveOrder[n]?).getD 0) (strength * (((steps[n]?).getD 0 : Nat) : Int)))
    (Array.replicate waveCount 0)
  (Cosine.square scaled).map fun n => byteOf (n + 128)

/-- The squares of all planes, if the steps of their waves are known. -/
def squares? (knowledge : Knowledge) (layout : Layout) (strengths : Array Int) :
    Option (Array (Array Nat)) := do
  let planes ← layout.planes.zipIdx.mapM fun (plane, index) => do
    let steps ← knowledge.steps.lookup plane.steps
    some ((List.range (layout.squareCount plane)).map fun n =>
      samples steps strengths (waveCount * (layout.firstSquare index + n)))
  some planes.flatten.toArray

/-- The sample of a plane under a pixel. -/
def sampleAt (layout : Layout) (squares : Array (Array Nat)) (index x y : Nat) : Nat :=
  match layout.planes[index]? with
  | none => 0
  | some plane =>
      let x := x * plane.across / layout.mostAcross
      let y := y * plane.down / layout.mostDown
      let square := layout.firstSquare index + y / 8 * layout.squaresAcross plane + x / 8
      (((squares[square]?).getD #[])[y % 8 * 8 + x % 8]?).getD 0

/-- A product of a difference of colour, in thousandths and rounded. -/
def tinted (brightness : Nat) (tints : List (Int × Nat)) : Nat :=
  let tint : Int :=
    tints.foldl (fun tint (share, value) => tint + share * ((value : Int) - 128)) 0
  byteOf ((1000 * (brightness : Int) + tint + 500).fdiv 1000)

/-- The colour of a brightness and two differences of colour. -/
def mixed (brightness blue red : Nat) : Colour :=
  { red := tinted brightness [(1402, red)]
    green := tinted brightness [(-344, blue), (-714, red)]
    blue := tinted brightness [(1772, blue)] }

/-- A channel of a colour that is kept with a share of brightness. -/
def dimmed (channel share : Nat) : Nat := channel * share / 255

/-- The pixel that samples stand for. -/
def pixelOf (mixing : Option Nat) : List Nat → Pixel
  | [grey] => ⟨grey, grey, grey, 255⟩
  | [a, b, c] =>
      let colour : Colour := if mixing = some 0 then ⟨a, b, c⟩ else mixed a b c
      ⟨colour.red, colour.green, colour.blue, 255⟩
  | [a, b, c, share] =>
      let colour : Colour := if mixing = some 2 then mixed a b c else ⟨a, b, c⟩
      ⟨dimmed colour.red share, dimmed colour.green share, dimmed colour.blue share, 255⟩
  | _ => ⟨0, 0, 0, 255⟩

/-- The raster of a file, if the bytes are one. -/
def read? (bytes : Array UInt8) : Option Raster := do
  guard (slice? bytes 0 2 = some [0xFF, 0xD8])
  let knowledge ← knowledge? bytes (bytes.size + 1) 2 {}
  let layout ← knowledge.layout
  let strengths ← knowledge.strengths
  let squares ← squares? knowledge layout strengths
  some
    { width := layout.width
      height := layout.height
      pixel := fun x y =>
        pixelOf knowledge.mixing
          ((List.range layout.planes.length).map fun index => sampleAt layout squares index x y) }

end Slidecast.Picture.Jpeg
