import Slidecast.Picture.PrefixCode
import Slidecast.Picture.Webp.Forecast

/-!
# Pixels without loss

The channels of pixels are symbols of prefix codes.  A symbol of the code for green may also stand
for a piece of pixels that have been met, or for a pixel that is remembered by a number worked out
from its channels.  Different parts of a raster may have different codes.
-/

set_option autoImplicit false

namespace Slidecast.Picture.Webp

open Files Number

/-! ## Codes -/

/-- A code with several symbols, or with a single one, which takes no bits. -/
inductive Alphabet where
  | single (symbol : Nat)
  | several (code : PrefixCode)

/-- The next symbol, and the bits after it. -/
def Alphabet.next? (alphabet : Alphabet) (bits : List Bool) : Option (Nat × List Bool) :=
  match alphabet with
  | .single symbol => some (symbol, bits)
  | .several code => code.next? bits

/-- The code with rows of the given lengths, which has to be complete. -/
def Alphabet.ofLengths? (lengths : List Nat) : Option Alphabet :=
  let code := PrefixCode.ofLengths lengths
  match code.symbols.toList with
  | [symbol] => some (.single symbol)
  | _ => if code.isComplete then some (.several code) else none

/-- In which order the lengths of the code for lengths are told. -/
def lengthOrder : List Nat :=
  [17, 18, 0, 1, 2, 3, 4, 5, 16, 6, 7, 8, 9, 10, 11, 12, 13, 14, 15]

/-- So many numbers of three bits. -/
def threeBits? : Nat → List Bool → Option (List Nat × List Bool)
  | 0, bits => some ([], bits)
  | count + 1, bits => do
      let (n, bits) ← lowFirst? 3 bits
      let (numbers, bits) ← threeBits? count bits
      some (n :: numbers, bits)

/-- So many lengths of rows, from as many symbols at most; the last length comes first, and after
the last symbol all lengths are zero. -/
def rowLengths? (alphabet : Alphabet) (count : Nat) :
    Nat → Nat → List Nat → List Bool → Option (List Nat × List Bool)
  | 0, _, told, bits => some (List.replicate (count - told.length) 0 ++ told, bits)
  | symbols + 1, last, told, bits =>
      if count ≤ told.length then
        if told.length = count then some (told, bits) else none
      else do
        let (symbol, bits) ← alphabet.next? bits
        if symbol < 16 then
          rowLengths? alphabet count symbols (if symbol = 0 then last else symbol)
            (symbol :: told) bits
        else
          let (length, size, least) :=
            if symbol = 16 then (last, 2, 3) else if symbol = 17 then (0, 3, 3) else (0, 7, 11)
          let (n, bits) ← lowFirst? size bits
          guard (told.length + (least + n) ≤ count)
          rowLengths? alphabet count symbols last (List.replicate (least + n) length ++ told) bits

/-- A code of one or two symbols that are told as they are. -/
def shortAlphabet? (bits : List Bool) : Option (Alphabet × List Bool) := do
  let (isPair, bits) ← lowFirst? 1 bits
  let (isLong, bits) ← lowFirst? 1 bits
  let (first, bits) ← lowFirst? (if isLong = 1 then 8 else 1) bits
  if isPair = 0 then some (.single first, bits)
  else
    let (second, bits) ← lowFirst? 8 bits
    some (.several { counts := [2], symbols := #[first, second] }, bits)

/-- The code of so many symbols that bits tell. -/
def alphabet? (count : Nat) (bits : List Bool) : Option (Alphabet × List Bool) := do
  let (isShort, bits) ← lowFirst? 1 bits
  if isShort = 1 then shortAlphabet? bits
  else
    let (lengthCount, bits) ← lowFirst? 4 bits
    let (lengths, bits) ← threeBits? (lengthCount + 4) bits
    let lengthOf (symbol : Nat) : Nat := ((lengthOrder.zip lengths).lookup symbol).getD 0
    let alphabet ← Alphabet.ofLengths? ((List.range 19).map lengthOf)
    let (isLimited, bits) ← lowFirst? 1 bits
    let (symbols, bits) ←
      if isLimited = 0 then some (count, bits)
      else do
        let (size, bits) ← lowFirst? 3 bits
        let (n, bits) ← lowFirst? (2 + 2 * size) bits
        some (2 + n, bits)
    guard (symbols ≤ count)
    let (lengths, bits) ← rowLengths? alphabet count symbols 8 [] bits
    some (← Alphabet.ofLengths? lengths.reverse, bits)

/-- The codes of a part of a raster. -/
structure Codes where
  green : Alphabet
  red : Alphabet
  blue : Alphabet
  alpha : Alphabet
  distance : Alphabet

/-- How many symbols stand for lengths, and how many for distances. -/
def lengthSymbols : Nat := 24

@[inherit_doc lengthSymbols]
def distanceSymbols : Nat := 40

/-- The codes of a part when so many pixels can be remembered. -/
def codes? (remembered : Nat) (bits : List Bool) : Option (Codes × List Bool) := do
  let (green, bits) ← alphabet? (256 + lengthSymbols + remembered) bits
  let (red, bits) ← alphabet? 256 bits
  let (blue, bits) ← alphabet? 256 bits
  let (alpha, bits) ← alphabet? 256 bits
  let (distance, bits) ← alphabet? distanceSymbols bits
  some ({ green, red, blue, alpha, distance }, bits)

/-- The codes of so many parts. -/
def allCodes? (remembered : Nat) : Nat → List Bool → Option (List Codes × List Bool)
  | 0, bits => some ([], bits)
  | count + 1, bits => do
      let (codes, bits) ← codes? remembered bits
      let (others, bits) ← allCodes? remembered count bits
      some (codes :: others, bits)

/-! ## Pieces -/

/-- The places near a pixel that have short numbers: how far they lie to the left and above. -/
def nearPlaces : Array (Int × Nat) :=
  #[ (0, 1), (1, 0), (1, 1), (-1, 1), (0, 2), (2, 0), (1, 2), (-1, 2),
     (2, 1), (-2, 1), (2, 2), (-2, 2), (0, 3), (3, 0), (1, 3), (-1, 3),
     (3, 1), (-3, 1), (2, 3), (-2, 3), (3, 2), (-3, 2), (0, 4), (4, 0),
     (1, 4), (-1, 4), (4, 1), (-4, 1), (3, 3), (-3, 3), (2, 4), (-2, 4),
     (4, 2), (-4, 2), (0, 5), (3, 4), (-3, 4), (4, 3), (-4, 3), (5, 0),
     (1, 5), (-1, 5), (5, 1), (-5, 1), (2, 5), (-2, 5), (5, 2), (-5, 2),
     (4, 4), (-4, 4), (3, 5), (-3, 5), (5, 3), (-5, 3), (0, 6), (6, 0),
     (1, 6), (-1, 6), (6, 1), (-6, 1), (2, 6), (-2, 6), (6, 2), (-6, 2),
     (4, 5), (-4, 5), (5, 4), (-5, 4), (3, 6), (-3, 6), (6, 3), (-6, 3),
     (0, 7), (7, 0), (1, 7), (-1, 7), (5, 5), (-5, 5), (7, 1), (-7, 1),
     (4, 6), (-4, 6), (6, 4), (-6, 4), (2, 7), (-2, 7), (7, 2), (-7, 2),
     (3, 7), (-3, 7), (7, 3), (-7, 3), (5, 6), (-5, 6), (6, 5), (-6, 5),
     (8, 0), (4, 7), (-4, 7), (7, 4), (-7, 4), (8, 1), (8, 2), (6, 6),
     (-6, 6), (8, 3), (5, 7), (-5, 7), (7, 5), (-7, 5), (8, 4), (6, 7),
     (-6, 7), (7, 6), (-7, 6), (8, 5), (7, 7), (-7, 7), (8, 6), (8, 7) ]

/-- How far back a piece begins in a raster of a width, by its number, which counts from one. -/
def distanceOf (width number : Nat) : Nat :=
  match nearPlaces[number - 1]? with
  | some (left, above) => max 1 (left + (above * width : Nat)).toNat
  | none => number - nearPlaces.size

/-- A number from one on that a symbol begins and bits go on with. -/
def counted? (symbol : Nat) (bits : List Bool) : Option (Nat × List Bool) :=
  if symbol < 4 then some (symbol + 1, bits)
  else
    let more := (symbol - 2) / 2
    match lowFirst? more bits with
    | some (n, bits) => some ((2 + symbol % 2) * twoTo more + n + 1, bits)
    | none => none

/-! ## Pixels -/

/-- The pixels that are remembered, by their numbers of so many bits. -/
structure Memory where
  bits : Nat
  pixels : Array Pixel

/-- The memory without pixels; with no bits it remembers none. -/
def Memory.blank (bits : Nat) : Memory :=
  { bits, pixels := if bits = 0 then #[] else Array.replicate (twoTo bits) nothing }

/-- The number under which a pixel is remembered. -/
def Memory.number (memory : Memory) (p : Pixel) : Nat :=
  let word := ((p.alpha * 256 + p.red) * 256 + p.green) * 256 + p.blue
  0x1E35A7BD * word % twoTo 32 / twoTo (32 - memory.bits)

/-- The memory with a pixel. -/
def Memory.keep (memory : Memory) (p : Pixel) : Memory :=
  if memory.bits = 0 then memory
  else { memory with pixels := memory.pixels.setIfInBounds (memory.number p) p }

/-- The pixels with so many more, each a copy of the one so far before it. -/
def copied (distance : Nat) : Nat → Array Pixel → Memory → Array Pixel × Memory
  | 0, out, memory => (out, memory)
  | length + 1, out, memory =>
      let p := (out[out.size - distance]?).getD nothing
      copied distance length (out.push p) (memory.keep p)

/-- The pixels of a grid of a width up to so many, with the codes of each place. -/
def pixels? (width count : Nat) (codesAt : Nat → Option Codes) :
    Nat → Array Pixel → Memory → List Bool → Option (Array Pixel × List Bool)
  | 0, out, _, bits => if out.size = count then some (out, bits) else none
  | fuel + 1, out, memory, bits =>
      if count ≤ out.size then if out.size = count then some (out, bits) else none
      else
        match codesAt out.size with
        | none => none
        | some codes =>
            match codes.green.next? bits with
            | none => none
            | some (symbol, bits) =>
                if symbol < 256 then
                  let rest : Option (Pixel × List Bool) := do
                    let (red, bits) ← codes.red.next? bits
                    let (blue, bits) ← codes.blue.next? bits
                    let (alpha, bits) ← codes.alpha.next? bits
                    some (⟨red, symbol, blue, alpha⟩, bits)
                  match rest with
                  | none => none
                  | some (p, bits) =>
                      pixels? width count codesAt fuel (out.push p) (memory.keep p) bits
                else if symbol < 256 + lengthSymbols then
                  let piece : Option (Nat × Nat × List Bool) := do
                    let (length, bits) ← counted? (symbol - 256) bits
                    let (symbol, bits) ← codes.distance.next? bits
                    let (number, bits) ← counted? symbol bits
                    some (length, distanceOf width number, bits)
                  match piece with
                  | none => none
                  | some (length, distance, bits) =>
                      if out.size < distance ∨ count < out.size + length then none
                      else
                        let (out, memory) := copied distance length out memory
                        pixels? width count codesAt fuel out memory bits
                else
                  match memory.pixels[symbol - 256 - lengthSymbols]? with
                  | none => none
                  | some p =>
                      pixels? width count codesAt fuel (out.push p) (memory.keep p) bits

/-- The bits of the numbers of remembered pixels, or zero for no memory. -/
def memoryBits? (bits : List Bool) : Option (Nat × List Bool) := do
  let (hasMemory, bits) ← lowFirst? 1 bits
  if hasMemory = 0 then some (0, bits)
  else
    let (size, bits) ← lowFirst? 4 bits
    guard (1 ≤ size ∧ size ≤ 11)
    some (size, bits)

/-- How many numbers a memory has. -/
def remembered (size : Nat) : Nat := if size = 0 then 0 else twoTo size

/-- A grid whose pixels all have the same codes. -/
def plainGrid? (width height : Nat) (bits : List Bool) : Option (Grid × List Bool) := do
  let (size, bits) ← memoryBits? bits
  let (codes, bits) ← codes? (remembered size) bits
  let count := width * height
  let (pixels, bits) ← pixels? width count (fun _ => some codes) count #[] (.blank size) bits
  some ({ width, height, pixels }, bits)

/-- How many squares with sides of so many bits cover a length. -/
def squaresOver (length bits : Nat) : Nat := (length + twoTo bits - 1) / twoTo bits

/-- A grid in which the codes may differ from square to square. -/
def partedGrid? (width height : Nat) (bits : List Bool) : Option (Grid × List Bool) := do
  let (size, bits) ← memoryBits? bits
  let (isParted, bits) ← lowFirst? 1 bits
  let (side, parts, bits) ←
    if isParted = 0 then some (0, none, bits)
    else do
      let (n, bits) ← lowFirst? 3 bits
      let (grid, bits) ← plainGrid? (squaresOver width (n + 2)) (squaresOver height (n + 2)) bits
      some (n + 2, some grid, bits)
  let part (place : Nat) : Nat :=
    match parts with
    | none => 0
    | some grid =>
        let p := tellingOf side grid (place % width) (place / width)
        p.red * 256 + p.green
  let most := match parts with
    | none => 0
    | some grid => (grid.pixels.map fun p => p.red * 256 + p.green).foldl max 0
  let (codes, bits) ← allCodes? (remembered size) (most + 1) bits
  let codes := codes.toArray
  let count := width * height
  let (pixels, bits) ←
    pixels? width count (fun place => codes[part place]?) count #[] (.blank size) bits
  some ({ width, height, pixels }, bits)

/-! ## Changes -/

/-- How many bits of the column one number of a pixel stands for, by the count of colours. -/
def packedBits (colours : Nat) : Nat :=
  if colours ≤ 2 then 3 else if colours ≤ 4 then 2 else if colours ≤ 16 then 1 else 0

/-- The change of a kind, in a raster of a size. -/
def change? (kind width height : Nat) (bits : List Bool) : Option (Change × List Bool) := do
  if kind = 2 then some (.fromGreen, bits)
  else if kind = 3 then
    let (n, bits) ← lowFirst? 8 bits
    let (grid, bits) ← plainGrid? (n + 1) 1 bits
    let colours := grid.pixels.foldl
      (fun colours p => colours.push (added p (colours.back?.getD nothing))) #[]
    some (.palette (packedBits (n + 1)) width colours, bits)
  else
    let (n, bits) ← lowFirst? 3 bits
    let side := n + 2
    let (grid, bits) ← plainGrid? (squaresOver width side) (squaresOver height side) bits
    some (if kind = 0 then .forecasts side grid else .shares side grid, bits)

/-- The kinds of changes, each of which may be made once. -/
def changeKinds : Nat := 4

/-- The changes that bits tell, the last one first, with the width of the grid after them. -/
def changes? (height : Nat) :
    Nat → Nat → List Nat → List Change → List Bool → Option (List Change × Nat × List Bool)
  | 0, _, _, _, _ => none
  | fuel + 1, width, kinds, changes, bits => do
      let (isNext, bits) ← lowFirst? 1 bits
      if isNext = 0 then some (changes, width, bits)
      else
        let (kind, bits) ← lowFirst? 2 bits
        guard (!kinds.contains kind)
        let (change, bits) ← change? kind width height bits
        let width := match change with
          | .palette packed _ _ => squaresOver width packed
          | _ => width
        changes? height fuel width (kind :: kinds) (change :: changes) bits

/-- The grid that bits tell, for a raster of a size. -/
def grid? (width height : Nat) (bits : List Bool) : Option Grid := do
  let (changes, packedWidth, bits) ← changes? height (changeKinds + 1) width [] [] bits
  let (grid, _) ← partedGrid? packedWidth height bits
  some (changes.foldl (fun grid change => change.undo grid) grid)

/-- The grid of a row of bytes, if they are one, and whether it is told to have transparency. -/
def lossless? (bytes : List UInt8) : Option (Grid × Bool) := do
  let first :: bytes := bytes | none
  guard (first = 0x2F)
  let (width, bits) ← lowFirst? 14 (bitsUp bytes)
  let (height, bits) ← lowFirst? 14 bits
  let (hasAlpha, bits) ← lowFirst? 1 bits
  let (version, bits) ← lowFirst? 3 bits
  guard (version = 0)
  let grid ← grid? (width + 1) (height + 1) bits
  some (grid, hasAlpha = 1)

/-- The raster of a grid. -/
def Grid.toRaster (grid : Grid) : Raster :=
  { width := grid.width, height := grid.height, pixel := grid.pixelAt }

end Slidecast.Picture.Webp
