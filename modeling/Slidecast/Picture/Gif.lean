import Slidecast.Files.Raster
import Slidecast.Number.Bits
import Slidecast.Picture.BitRow
import Slidecast.Picture.Octets

/-!
# Rasters of colour numbers

A file of this kind has a screen and frames on it, of which the first one counts.  The pixels of a
frame are numbers of colours in a palette.  They are packed as numbers of words; a word is one
number or a word that has been met, with one more number.
-/

set_option autoImplicit false

namespace Slidecast.Picture.Gif

open Files Number

/-! ## Words -/

/-- A word: its numbers, the last one first. -/
abbrev Word := List Nat

/-- The numbers of words have at most so many bits. -/
def widest : Nat := 12

/-- The words that are known at the beginning, for colours of so many bits: the single numbers and
two places that stand for no words. -/
def firstWords (bits : Nat) : Array Word :=
  ((List.range (twoTo bits)).map fun n => [n]).toArray ++ #[[], []]

/-- How far the unpacking has come. -/
structure Progress where
  words : Array Word
  /-- How many bits the number of a word has. -/
  width : Nat
  /-- The word before, unless the words have just been forgotten. -/
  last : Option Word
  /-- The numbers of colours, the last word first. -/
  out : List Word := []

/-- The unpacking at its beginning, or when the words have been forgotten. -/
def fresh (bits : Nat) (out : List Word) : Progress :=
  { words := firstWords bits, width := bits + 1, last := none, out }

/-- A word with the first number of another one added. -/
def Word.extended (word other : Word) : Word := (other.getLast?.toList) ++ word

/-- The progress when a word is known, unless no more words can be. -/
def Progress.learn (progress : Progress) (word : Word) : Progress :=
  if progress.words.size < twoTo widest then
    let words := progress.words.push word
    let width :=
      if words.size = twoTo progress.width ∧ progress.width < widest then progress.width + 1
      else progress.width
    { progress with words, width }
  else progress

/-- The progress with the word of a number, if there is one. -/
def Progress.next? (progress : Progress) (bits number : Nat) : Option Progress :=
  let emit (progress : Progress) (word : Word) : Progress :=
    { progress with last := some word, out := word :: progress.out }
  match progress.last with
  | none => if number < twoTo bits then some (emit progress [number]) else none
  | some last =>
      match progress.words[number]? with
      | some word => some (emit (progress.learn (last.extended word)) word)
      | none =>
          if number = progress.words.size then
            let word := last.extended last
            some (emit (progress.learn word) word)
          else none

/-- The words of packed numbers, the last one first, up to the end or to a number of no word. -/
def unpacked (bits : Nat) : Nat → Progress → List Bool → List Word
  | 0, progress, _ => progress.out
  | fuel + 1, progress, packed =>
      match lowFirst? progress.width packed with
      | none => progress.out
      | some (number, packed) =>
          if number = twoTo bits then unpacked bits fuel (fresh bits progress.out) packed
          else if number = twoTo bits + 1 then progress.out
          else
            match progress.next? bits number with
            | some progress => unpacked bits fuel progress packed
            | none => progress.out

/-- The numbers that are packed in bytes, for colours of so many bits. -/
def numbers (bits : Nat) (bytes : List UInt8) : Array Nat :=
  let packed := bitsUp bytes
  ((unpacked bits (packed.length + 1) (fresh bits []) packed).foldl
    (fun numbers word => word.reverse ++ numbers) []).toArray

/-! ## Blocks -/

/-- The bytes of the pieces from a place on, and the place behind them; a piece has its length in
front, and an empty one is the last.  What is missing is left out. -/
def pieces (bytes : Array UInt8) : Nat → Nat → List UInt8 × Nat
  | 0, place => ([], place)
  | fuel + 1, place =>
      match big? bytes place 1 with
      | none => ([], place)
      | some 0 => ([], place + 1)
      | some length =>
          let piece := (bytes.extract (place + 1) (place + 1 + length)).toList
          let (others, behind) := pieces bytes fuel (place + 1 + length)
          (piece ++ others, behind)

/-- Which palette, if any, flags announce at a place, and the place behind it. -/
def palette? (bytes : Array UInt8) (flags place : Nat) :
    Option (Option (Array UInt8) × Nat) :=
  if flags / 128 = 1 then do
    let length := 3 * twoTo (flags % 8 + 1)
    let colours ← slice? bytes place length
    some (some colours.toArray, place + length)
  else some (none, place)

/-- A frame on the screen. -/
structure Frame where
  left : Nat
  top : Nat
  width : Nat
  height : Nat
  /-- The row of the screen in which the rows of the frame are kept, by their order. -/
  keptRow : Nat → Nat
  numbers : Array Nat
  palette : Array UInt8
  /-- The number of the colour that is not shown. -/
  transparent : Option Nat

/-- The first row and the distance of the rows in each pass of an interlaced frame. -/
def interlacedPasses : List (Nat × Nat) := [(0, 8), (4, 8), (2, 4), (1, 2)]

/-- In which order the rows of an interlaced frame are kept. -/
def interlacedRows (height : Nat) : List Nat :=
  interlacedPasses.flatMap fun (first, step) =>
    (List.range height).filter fun row => first ≤ row ∧ (row - first) % step = 0

/-- The frame at a place. -/
def frame? (bytes : Array UInt8) (screen : Option (Array UInt8)) (transparent : Option Nat)
    (place : Nat) : Option Frame := do
  let left ← little? bytes place 2
  let top ← little? bytes (place + 2) 2
  let width ← little? bytes (place + 4) 2
  let height ← little? bytes (place + 6) 2
  let flags ← little? bytes (place + 8) 1
  let (own, place) ← palette? bytes flags (place + 9)
  let palette ← own.or screen
  let bits ← little? bytes place 1
  guard (1 ≤ bits ∧ bits ≤ widest - 1)
  let (packed, _) := pieces bytes bytes.size (place + 1)
  let numbers := numbers bits packed
  guard (width * height ≤ numbers.size)
  let order := (interlacedRows height).toArray
  let keptRow (row : Nat) : Nat :=
    if flags / 64 % 2 = 1 then ((order.findIdx? (· = row))).getD 0 else row
  some { left, top, width, height, keptRow, numbers, palette, transparent }

/-- The first frame from a place on. -/
def firstFrame? (bytes : Array UInt8) (screen : Option (Array UInt8)) :
    Nat → Option Nat → Nat → Option Frame
  | 0, _, _ => none
  | fuel + 1, transparent, place => do
      let kind ← little? bytes place 1
      if kind = 0x2C then frame? bytes screen transparent (place + 1)
      else
        guard (kind = 0x21)
        let label ← little? bytes (place + 1) 1
        let (data, behind) := pieces bytes bytes.size (place + 2)
        let transparent :=
          match label, data with
          | 0xF9, [flags, _, _, number] =>
              if flags.toNat % 2 = 1 then some number.toNat else none
          | _, _ => transparent
        firstFrame? bytes screen fuel transparent behind

/-- The pixel of a frame at a place of the screen. -/
def Frame.pixel (frame : Frame) (x y : Nat) : Pixel :=
  if frame.left ≤ x ∧ x < frame.left + frame.width ∧ frame.top ≤ y ∧
      y < frame.top + frame.height then
    let place := frame.keptRow (y - frame.top) * frame.width + (x - frame.left)
    let number := (frame.numbers[place]?).getD 0
    match slice? frame.palette (3 * number) 3 with
    | some [red, green, blue] =>
        ⟨red.toNat, green.toNat, blue.toNat, if frame.transparent = some number then 0 else 255⟩
    | _ => ⟨0, 0, 0, 0⟩
  else ⟨0, 0, 0, 0⟩

/-- The raster of a file, if the bytes are one. -/
def read? (bytes : Array UInt8) : Option Raster := do
  let name ← slice? bytes 0 6
  guard (name = "GIF87a".toUTF8.toList ∨ name = "GIF89a".toUTF8.toList)
  let width ← little? bytes 6 2
  let height ← little? bytes 8 2
  let flags ← little? bytes 10 1
  let _ ← slice? bytes 11 2
  let (screen, place) ← palette? bytes flags 13
  let frame ← firstFrame? bytes screen bytes.size none place
  some { width, height, pixel := frame.pixel }

end Slidecast.Picture.Gif
