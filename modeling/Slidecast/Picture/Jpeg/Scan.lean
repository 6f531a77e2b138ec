import Slidecast.Number.Bits
import Slidecast.Picture.PrefixCode
import Slidecast.Picture.Jpeg.Layout

/-!
# Scans

A scan tells the strengths of waves for the squares of some planes.  The first strength of a square
is told by its difference from the one before; the others come with the count of zeros in front of
them.  A later scan may tell one more bit of strengths that are known already.  Where the bits end
too early, nothing more is told.
-/

set_option autoImplicit false

namespace Slidecast.Picture.Jpeg

open Number

/-- How many waves a square has. -/
def waveCount : Nat := 64

/-- What a scan tells. -/
structure Scan where
  /-- The planes by their order, with the codes for the first strength and for the others. -/
  planes : List (Nat × PrefixCode × PrefixCode)
  /-- The first and the last wave that are told. -/
  first : Nat
  last : Nat
  /-- Whether the strengths are known already but for a bit. -/
  isFiner : Bool
  /-- The lowest bit that is told. -/
  low : Nat
  /-- Whether many squares may be told to have no more waves. -/
  progressive : Bool

/-- Strengths that are told for some waves of a square. -/
abbrev Told := List (Nat × Int)

/-- A number of so many bits, of which the smaller half stands for negative numbers. -/
def signedBits? (size : Nat) (bits : List Bool) : Option (Int × List Bool) :=
  match highFirst? size bits with
  | some (n, bits) =>
      if size = 0 then some (0, bits)
      else if n < twoTo (size - 1) then some ((n : Int) - (largest size : Int), bits)
      else some (n, bits)
  | none => none

/-- The difference of a first strength from the one before. -/
def difference? (code : PrefixCode) (bits : List Bool) : Option (Int × List Bool) :=
  match code.next? bits with
  | some (size, bits) => if size ≤ 16 then signedBits? size bits else none
  | none => none

/-- How many of the following squares have no more waves, when a symbol has told the size of their
count. -/
def emptySquares? (size : Nat) (bits : List Bool) : Option (Nat × List Bool) :=
  match highFirst? size bits with
  | some (n, bits) => some (twoTo size + n - 1, bits)
  | none => none

/-- The strengths of the waves from one on when they are told for the first time, and how many of
the following squares have no more of them. -/
def strengths? (scan : Scan) (code : PrefixCode) :
    Nat → Nat → Told → List Bool → Option (Told × Nat × List Bool)
  | 0, _, _, _ => none
  | fuel + 1, wave, told, bits =>
      if scan.last < wave then some (told, 0, bits)
      else
        match code.next? bits with
        | none => none
        | some (symbol, bits) =>
            let zeros := symbol / 16
            let size := symbol % 16
            if size = 0 ∧ zeros < 15 then
              match emptySquares? (if scan.progressive then zeros else 0) bits with
              | some (empty, bits) => some (told, empty, bits)
              | none => none
            else
              match signedBits? size bits with
              | none => none
              | some (strength, bits) =>
                  let wave := wave + zeros
                  let told :=
                    if size = 0 ∨ scan.last < wave then told
                    else (wave, strength * twoTo scan.low) :: told
                  strengths? scan code fuel (wave + 1) told bits

/-- A strength with one more bit, if it has not been set before. -/
def finer (low : Nat) (strength : Int) : Int :=
  if strength.natAbs / twoTo low % 2 = 1 then strength else strength + strength.sign * twoTo low

/-- The next bits of the known strengths among so many waves from one on, up to a wave without a
strength that has so many of its kind before it; and that wave. -/
def finerUpTo? (known : Nat → Int) (low : Nat) :
    Nat → Nat → Nat → Told → List Bool → Option (Nat × Told × List Bool)
  | 0, wave, _, told, bits => some (wave, told, bits)
  | waves + 1, wave, zeros, told, bits =>
      if known wave = 0 then
        match zeros with
        | 0 => some (wave, told, bits)
        | zeros + 1 => finerUpTo? known low waves (wave + 1) zeros told bits
      else
        match bits with
        | [] => none
        | b :: bits =>
            let told := if b then (wave, finer low (known wave)) :: told else told
            finerUpTo? known low waves (wave + 1) zeros told bits

/-- The next bits of all known strengths from a wave on. -/
def allFiner? (scan : Scan) (known : Nat → Int) (wave : Nat) (told : Told) (bits : List Bool) :
    Option (Told × List Bool) :=
  match finerUpTo? known scan.low (scan.last + 1 - wave) wave waveCount told bits with
  | some (_, told, bits) => some (told, bits)
  | none => none

/-- The next bits of the strengths from a wave on, with strengths that begin with this bit, and how
many of the following squares have none that begin. -/
def finerStrengths? (scan : Scan) (code : PrefixCode) (known : Nat → Int) :
    Nat → Nat → Told → List Bool → Option (Told × Nat × List Bool)
  | 0, _, _, _ => none
  | fuel + 1, wave, told, bits =>
      if scan.last < wave then some (told, 0, bits)
      else do
        let (symbol, bits) ← code.next? bits
        let zeros := symbol / 16
        let size := symbol % 16
        if size = 0 ∧ zeros < 15 then
          let (empty, bits) ← emptySquares? zeros bits
          let (told, bits) ← allFiner? scan known wave told bits
          some (told, empty, bits)
        else
          let (isPositive, bits) ← highFirst? (min size 1) bits
          let (wave, told, bits) ←
            finerUpTo? known scan.low (scan.last + 1 - wave) wave zeros told bits
          let strength : Int := if isPositive = 1 then twoTo scan.low else -twoTo scan.low
          let told := if size = 0 ∨ scan.last < wave then told else (wave, strength) :: told
          finerStrengths? scan code known fuel (wave + 1) told bits

/-- What is told for a square. -/
structure News where
  told : Told
  /-- The first strength, from which the next one differs. -/
  before : Int
  /-- How many of the following squares have no news. -/
  empty : Nat
  bits : List Bool

/-- What is told of the first strength of a square. -/
def firstNews? (scan : Scan) (code : PrefixCode) (known : Nat → Int) (before : Int)
    (bits : List Bool) : Option (Told × Int × List Bool) :=
  if 0 < scan.first then some ([], before, bits)
  else if scan.isFiner then
    match bits with
    | [] => none
    | b :: bits => some (if b then [(0, known 0 + twoTo scan.low)] else [], before, bits)
  else
    match difference? code bits with
    | some (difference, bits) =>
        let strength := before + difference
        some ([(0, strength * twoTo scan.low)], strength, bits)
    | none => none

/-- What is told for a square, when strengths are known and so many squares have no news. -/
def news? (scan : Scan) (codes : PrefixCode × PrefixCode) (known : Nat → Int) (before : Int)
    (empty : Nat) (bits : List Bool) : Option News := do
  let (told, before, bits) ← firstNews? scan codes.1 known before bits
  let wave := max 1 scan.first
  if scan.last < wave then some { told, before, empty, bits }
  else if 0 < empty then
    let (told, bits) ←
      if scan.isFiner then allFiner? scan known wave told bits else some (told, bits)
    some { told, before, empty := empty - 1, bits }
  else
    let (told, empty, bits) ←
      if scan.isFiner then finerStrengths? scan codes.2 known (waveCount + 1) wave told bits
      else strengths? scan codes.2 (waveCount + 1) wave told bits
    some { told, before, empty, bits }

/-- How far a scan has come. -/
structure Progress where
  /-- The strengths of all squares. -/
  strengths : Array Int
  /-- The last first strength of each plane. -/
  before : Array Int
  empty : Nat
  bits : List Bool

/-- The progress through some squares, as far as the bits go. -/
def Progress.through (scan : Scan) : List (Nat × Nat) → Progress → Progress
  | [], progress => progress
  | (index, square) :: squares, progress =>
      let start := waveCount * square
      let strengths := progress.strengths
      let news : Option News := do
        let codes ← scan.planes.lookup index
        news? scan codes (fun wave => (strengths[start + wave]?).getD 0)
          ((progress.before[index]?).getD 0) progress.empty progress.bits
      match news with
      | none => { progress with strengths, bits := [] }
      | some news =>
          Progress.through scan squares
            { strengths := news.told.foldl
                (fun strengths (wave, n) => strengths.setIfInBounds (start + wave) n) strengths
              before := progress.before.setIfInBounds index news.before
              empty := news.empty
              bits := news.bits }

/-- The strengths after so many groups of a scan from one on, whose bits are given. -/
def throughGroups (layout : Layout) (scan : Scan) (strengths : Array Int) (first count : Nat)
    (bits : List Bool) : Array Int :=
  let indices := scan.planes.map Prod.fst
  let squares := (List.range' first count).flatMap (layout.scanSquares indices)
  (Progress.through scan squares
    { strengths, before := Array.replicate layout.planes.length 0, empty := 0, bits }).strengths

/-- The strengths after a scan, whose bits come in parts of so many groups; all of it is one part if
there is no such number. -/
def throughScan (layout : Layout) (scan : Scan) (interval : Nat) (strengths : Array Int)
    (parts : List (List UInt8)) : Array Int :=
  let count := layout.scanGroups (scan.planes.map Prod.fst)
  if interval = 0 then throughGroups layout scan strengths 0 count (bitsDown parts.flatten)
  else
    (parts.zipIdx.foldl
      (fun strengths (part, n) =>
        throughGroups layout scan strengths (n * interval)
          (min interval (count - n * interval)) (bitsDown part))
      strengths)

end Slidecast.Picture.Jpeg
