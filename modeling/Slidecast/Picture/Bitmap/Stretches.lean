import Slidecast.Number.Bits
import Slidecast.Picture.Octets

/-!
# Stretches of pixels

The rows of a bitmap may be kept as stretches: so many pixels of one or two colours in turn, or
pixels as they are.  A zero stands in front of orders: to end the row, to end all, to move on.  A
stretch that is too long for its row ends with it.
-/

set_option autoImplicit false

namespace Slidecast.Picture.Bitmap

open Number

/-- Pixels side by side in a row, by the numbers of their colours. -/
structure Stretch where
  row : Nat
  column : Nat
  numbers : Array Nat

/-- Whether a stretch has a pixel. -/
def Stretch.has (stretch : Stretch) (x row : Nat) : Bool :=
  stretch.row = row && stretch.column ≤ x && x < stretch.column + stretch.numbers.size

/-- The numbers in a row of bytes, each of so many bits. -/
def numbersIn (depth : Nat) (bytes : List UInt8) : List Nat :=
  bytes.flatMap fun b =>
    if depth = 4 then [b.toNat / 16, b.toNat % 16] else [b.toNat]

/-- What stands at a place. -/
inductive Order where
  /-- So many pixels with the numbers in a byte in turn. -/
  | run (count : Nat) (byte : UInt8)
  /-- Pixels as they are. -/
  | plain (numbers : List Nat)
  | rowEnd
  | allEnd
  | move (right up : Nat)

/-- The order at a place, and the place behind it. -/
def order? (bytes : Array UInt8) (depth place : Nat) : Option (Order × Nat) := do
  let count ← bytes[place]?
  let byte ← bytes[place + 1]?
  if count ≠ 0 then some (.run count.toNat byte, place + 2)
  else if byte = 0 then some (.rowEnd, place + 2)
  else if byte = 1 then some (.allEnd, place + 2)
  else if byte = 2 then
    let right ← bytes[place + 2]?
    let up ← bytes[place + 3]?
    some (.move right.toNat up.toNat, place + 4)
  else
    let length := (byte.toNat * depth + 7) / 8
    let length := length + length % 2
    let packed ← slice? bytes (place + 2) length
    some (.plain ((numbersIn depth packed).take byte.toNat), place + 2 + length)

/-- The numbers of a run: those in a byte in turn. -/
def runNumbers (depth count : Nat) (byte : UInt8) : List Nat :=
  let numbers := numbersIn depth [byte]
  (List.range count).map fun n => (numbers[n % numbers.length]?).getD 0

/-- The stretches from a place on, in so many rows of a width.  Where the bytes end before the
rows, or an order leads out of them, there are none. -/
def stretches? (bytes : Array UInt8) (depth width height : Nat) :
    Nat → Nat → Nat → Nat → List Stretch → Option (List Stretch)
  | 0, _, _, _, _ => none
  | fuel + 1, place, row, column, done =>
      if height ≤ row then some done
      else
        match order? bytes depth place with
        | none => none
        | some (order, place) =>
            let painted (numbers : List Nat) : List Stretch :=
              { row, column, numbers := (numbers.take (width - column)).toArray } :: done
            match order with
            | .run count byte =>
                let done := painted (runNumbers depth count byte)
                if column + count ≤ width then
                  stretches? bytes depth width height fuel place row (column + count) done
                else stretches? bytes depth width height fuel place (row + 1) 0 done
            | .plain numbers =>
                let done := painted numbers
                if column + numbers.length ≤ width then
                  stretches? bytes depth width height fuel place row (column + numbers.length) done
                else some done
            | .rowEnd => stretches? bytes depth width height fuel place (row + 1) 0 done
            | .allEnd => some done
            | .move right up =>
                if row + up < height ∧ column + right ≤ width then
                  stretches? bytes depth width height fuel place (row + up) (column + right) done
                else none

end Slidecast.Picture.Bitmap
