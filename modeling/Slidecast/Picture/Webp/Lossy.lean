import Slidecast.Files.Raster
import Slidecast.Picture.Octets
import Slidecast.Picture.Webp.Course
import Slidecast.Picture.Webp.Odds
import Slidecast.Picture.Webp.OddsTable
import Slidecast.Picture.Webp.Seam

/-!
# Pixels with loss

A raster of this kind is a plane of brightness and two planes of colour with half the sides.  They
are made of big squares, and these of small ones of four times four values.  Each square goes on
from its edges, and waves are added, whose strengths are counted in steps.  One row of bits tells
the courses of all squares; other rows, one or several, tell the strengths.  When all squares are
there, their seams are smoothed.
-/

set_option autoImplicit false

namespace Slidecast.Picture.Webp

open Files Number

/-! ## What is told of all squares -/

/-- The steps in which strengths are counted: of the means of squares, and of other waves. -/
structure Steps where
  mean : Nat
  wave : Nat

/-- The steps in small squares, in squares of means, and in squares of colour. -/
structure StepSet where
  small : Steps
  means : Steps
  colour : Steps

/-- What is told of a part of the raster: a number for its steps and a level for its seams, which
may be added to those of the raster. -/
structure Quality where
  isAdded : Bool := false
  number : Int := 0
  level : Int := 0

/-- The parts that a raster may have, with the odds that tell the part of a square. -/
structure Parts where
  qualities : List Quality
  odds : Option (List Nat)

/-- How the numbers for steps differ from the one of a part. -/
structure Offsets where
  number : Int
  smallMean : Int
  meansMean : Int
  meansWave : Int
  colourMean : Int
  colourWave : Int

/-- What is told of all squares. -/
structure Rules where
  parts : Option Parts
  smoothing : Smoothing
  offsets : Offsets
  odds : Array Nat
  /-- The odds that a square has no waves, if squares tell it. -/
  emptyOdds : Option Nat
  /-- How many rows of bits there are for strengths. -/
  rowCount : Nat

/-- So many optional numbers of a size. -/
def optionalNumbers (size count : Nat) : Drawn (List Int) :=
  several (ifTold (numberWithSign size) 0) count

/-- The parts of a raster. -/
def parts : Drawn Parts := do
  let hasOdds ← evenBit
  let hasQualities ← evenBit
  let qualities ←
    if hasQualities then do
      let isFixed ← evenBit
      let numbers ← optionalNumbers 7 4
      let levels ← optionalNumbers 6 4
      pure ((numbers.zip levels).map fun (number, level) => { isAdded := !isFixed, number, level })
    else pure []
  let odds ←
    if hasOdds then some <$> several (ifTold (number 8) 255) 3 else pure none
  return { qualities, odds }

/-- The smoothing of seams. -/
def smoothing : Drawn Smoothing := do
  let isPlain ← evenBit
  let level ← number 6
  let sharpness ← number 3
  let hasOffsets ← evenBit
  let areTold ← if hasOffsets then evenBit else pure false
  let offsets ← if areTold then optionalNumbers 6 8 else pure []
  pure
    { isPlain, level, sharpness, offset := (offsets[0]?).getD 0
      partedOffset := (offsets[4]?).getD 0 }

/-- The offsets of numbers for steps. -/
def offsets : Drawn Offsets := do
  let number ← number 7
  let smallMean ← ifTold (numberWithSign 4) 0
  let meansMean ← ifTold (numberWithSign 4) 0
  let meansWave ← ifTold (numberWithSign 4) 0
  let colourMean ← ifTold (numberWithSign 4) 0
  let colourWave ← ifTold (numberWithSign 4) 0
  return { number, smallMean, meansMean, meansWave, colourMean, colourWave }

/-- The odds of strengths, from the usual ones and the odds that they stay. -/
def waveOdds : List (Nat × Nat) → Drawn (List Nat)
  | [] => pure []
  | (usual, kept) :: rest => do
      let isTold ← bit kept
      let odds ← if isTold then number 8 else pure usual
      let others ← waveOdds rest
      return odds :: others

/-- What is told of all squares. -/
def rules : Drawn Rules := do
  let space ← evenBit
  guard (space = false)
  let _ ← evenBit
  let parts ← ifTold (some <$> parts) none
  let smoothing ← smoothing
  let rowBits ← number 2
  let offsets ← offsets
  let _ ← evenBit
  let odds ← waveOdds (usualWaveOdds.zip keptWaveOdds)
  let emptyOdds ← ifTold (some <$> number 8) none
  return { parts, smoothing, offsets, odds := odds.toArray, emptyOdds, rowCount := twoTo rowBits }

/-- A step of a table by a number, moved into the table. -/
def stepOf (table : Array Nat) (last : Nat) (number : Int) : Nat :=
  (table[min number.toNat last]?).getD 0

/-- What is told of a part; without parts nothing is added. -/
def Rules.quality (rules : Rules) (part : Nat) : Quality :=
  match rules.parts with
  | some parts => (parts.qualities[part]?).getD {}
  | none => { isAdded := true }

/-- The steps in the squares of a part. -/
def Rules.steps (rules : Rules) (part : Nat) : StepSet :=
  let offsets := rules.offsets
  let quality := rules.quality part
  let n := if quality.isAdded then offsets.number + quality.number else quality.number
  let mean (offset : Int) (last : Nat) : Nat := stepOf meanSteps last (n + offset)
  let wave (offset : Int) : Nat := stepOf waveSteps 127 (n + offset)
  { small := { mean := mean offsets.smallMean 127, wave := wave 0 }
    means :=
      { mean := 2 * mean offsets.meansMean 127
        wave := max 8 (wave offsets.meansWave * 155 / 100) }
    colour := { mean := mean offsets.colourMean 117, wave := wave offsets.colourWave } }

/-! ## Courses -/

/-- What is told of a big square: the courses of its small squares, row after row, or the course of
all of it. -/
structure Head where
  part : Nat
  /-- Whether no waves are added. -/
  isEmpty : Bool
  /-- Whether the small squares have courses of their own. -/
  isParted : Bool
  courses : List (List Course)
  colour : Course

/-- How many small squares stand side by side in a big one. -/
def smallCount : Nat := 4

/-- The courses that the square on the right sees. -/
def Head.right (head : Head) : List Course := head.courses.filterMap List.getLast?

/-- The courses that the square below sees. -/
def Head.below (head : Head) : List Course := (head.courses.getLast?).getD []

/-- The course of a small square, with the odds for its neighbours. -/
def smallSquareCourse (left top : Course) : Drawn Course := do
  let odds (n : Nat) : Nat := (courseOdds[(top.number * 10 + left.number) * 9 + n]?).getD 0
  if !(← bit (odds 0)) then return .even
  if !(← bit (odds 1)) then return .slope
  if !(← bit (odds 2)) then return .down
  if ← bit (odds 3) then
    if !(← bit (odds 6)) then return .downLeft
    if !(← bit (odds 7)) then return .steepLeft
    return if ← bit (odds 8) then .flatUp else .flatDown
  else
    if !(← bit (odds 4)) then return .across
    return if ← bit (odds 5) then .steepRight else .downRight

/-- The course of a big square. -/
def bigSquareCourse : Drawn Course := do
  if ← bit 156 then return if ← bit 128 then .slope else .across
  else return if ← bit 163 then .down else .even

/-- The course of the colours in a big square. -/
def colourCourse : Drawn Course := do
  if !(← bit 142) then return .even
  if !(← bit 114) then return .down
  return if ← bit 183 then .slope else .across

/-- The part of a big square. -/
def partOf (rules : Rules) : Drawn Nat := do
  match rules.parts.bind (·.odds) with
  | some [first, second, third] =>
      if ← bit first then return 2 + (← bit third).toNat
      else return (← bit second).toNat
  | _ => return 0

/-- What is told of a big square. -/
def headOf (rules : Rules) (left top : List Course) : Drawn Head := do
  let part ← partOf rules
  let isEmpty ← match rules.emptyOdds with
    | some odds => bit odds
    | none => pure false
  let isParted := !(← bit 145)
  let courses ←
    if isParted then rowsOf smallSquareCourse id id left top
    else do
      let course ← bigSquareCourse
      pure (List.replicate smallCount (List.replicate smallCount course))
  let colour ← colourCourse
  return { part, isEmpty, isParted, courses, colour }

/-! ## Strengths -/

/-- The strengths of the waves in a small square, and whether some have been told. -/
structure Waves where
  strengths : Array Int
  isTold : Bool

/-- The place in a square of each wave, in the order in which waves are told. -/
def smallWaveOrder : Array Nat := #[0, 1, 4, 8, 5, 2, 3, 6, 9, 12, 13, 10, 7, 11, 14, 15]

/-- The band of each wave. -/
def waveBands : Array Nat := #[0, 1, 2, 3, 6, 4, 5, 6, 6, 6, 6, 6, 6, 6, 6, 7]

/-- How many waves a small square has. -/
def smallWaveCount : Nat := 16

/-- The odds of strengths in squares of a kind, for a wave, a case and a question. -/
def Rules.oddsOf (rules : Rules) (kind wave case question : Nat) : Nat :=
  let band := (waveBands[wave]?).getD 0
  (rules.odds[((kind * 8 + band) * 3 + case) * 11 + question]?).getD 0

/-- The odds of the bits of numbers from a size on. -/
def largeOdds : Nat → List Nat
  | 0 => [173, 148, 140]
  | 1 => [176, 155, 140, 135]
  | 2 => [180, 157, 141, 134, 130]
  | _ => [254, 254, 243, 230, 196, 177, 153, 140, 133, 130, 129]

/-- A strength above one without its sign, with the odds of questions. -/
def largeStrength (odds : Nat → Nat) : Drawn Nat := do
  if !(← bit (odds 3)) then
    if !(← bit (odds 4)) then return 2
    return 3 + (← bit (odds 5)).toNat
  else if !(← bit (odds 6)) then
    if !(← bit (odds 7)) then return 5 + (← numberAfter 0 [159])
    return 7 + (← numberAfter 0 [165, 145])
  else
    let high ← bit (odds 8)
    let low ← bit (odds (9 + high.toNat))
    let size := 2 * high.toNat + low.toNat
    return 3 + 8 * twoTo size + (← numberAfter 0 (largeOdds size))

/-- The strengths of the waves from one on.  It is asked whether there are any more, but not after a
strength of zero. -/
def wavesFrom (rules : Rules) (kind : Nat) (steps : Steps) :
    Nat → Nat → Nat → Bool → Array Int → Drawn (Nat × Array Int)
  | 0, _, wave, _, strengths => pure (wave, strengths)
  | fuel + 1, case, wave, isAsked, strengths => do
      if smallWaveCount ≤ wave then return (smallWaveCount, strengths)
      let odds := rules.oddsOf kind wave case
      let isEnd ← if isAsked then not <$> bit (odds 0) else pure false
      if isEnd then return (wave, strengths)
      if !(← bit (odds 1)) then wavesFrom rules kind steps fuel 0 (wave + 1) false strengths
      else
        let isLarge ← bit (odds 2)
        let strength ← if isLarge then largeStrength odds else pure 1
        let isNegative ← evenBit
        let step := if wave = 0 then steps.mean else steps.wave
        let told : Int := (if isNegative then -(strength : Int) else strength) * step
        let place := (smallWaveOrder[wave]?).getD 0
        wavesFrom rules kind steps fuel (if isLarge then 2 else 1) (wave + 1) true
          (strengths.setIfInBounds place told)

/-- The waves of a small square of a kind from a first wave on, in a case. -/
def wavesOf (rules : Rules) (kind first : Nat) (steps : Steps) (case : Nat) : Drawn Waves := do
  let (last, strengths) ←
    wavesFrom rules kind steps (smallWaveCount + 1) case first true
      (Array.replicate smallWaveCount 0)
  return { strengths, isTold := first < last }

/-! ## Waves of big squares -/

/-- Whether the small squares at an edge have waves; the means of a big square are a square of their
own. -/
structure Traces where
  brightness : List Bool
  blue : List Bool
  red : List Bool
  means : Bool

/-- The edge of a big square without waves. -/
def Traces.none : Traces :=
  { brightness := List.replicate 4 false
    blue := List.replicate 2 false
    red := List.replicate 2 false
    means := false }

/-- The waves of a big square, in rows of small ones. -/
structure BigWaves where
  brightness : List (List Waves) := []
  blue : List (List Waves) := []
  red : List (List Waves) := []
  /-- What the square on the right sees. -/
  right : Traces
  /-- What the square below sees. -/
  below : Traces

/-- The means of sixteen squares from the waves of a square of means. -/
def spreadMeans (strengths : Array Int) : Array Int :=
  let at4 (values : Array Int) (n : Nat) : Int := (values[n]?).getD 0
  let turn (a b c d : Int) : List Int := [a + d + (b + c), a - d + (b - c), a + d - (b + c),
    a - d - (b - c)]
  let columns := ((List.range 4).map fun i =>
    (turn (at4 strengths i) (at4 strengths (4 + i)) (at4 strengths (8 + i))
      (at4 strengths (12 + i))).toArray).toArray
  ((List.range 4).flatMap fun row =>
    let value (i : Nat) : Int := at4 ((columns[i]?).getD #[]) row
    (turn (value 0 + 3) (value 1) (value 2) (value 3)).map (·.fdiv 8)).toArray

/-- The rows of small squares, each with its mean. -/
def withMeans (means : Array Int) (rows : List (List Waves)) : List (List Waves) :=
  rows.mapIdx fun j row => row.mapIdx fun i waves =>
    { waves with
      strengths := waves.strengths.setIfInBounds 0 ((means[smallCount * j + i]?).getD 0) }

/-- The last values in rows, and the last row. -/
def rightTraces (rows : List (List Waves)) : List Bool :=
  rows.filterMap fun row => row.getLast?.map (·.isTold)

@[inherit_doc rightTraces]
def lowerTraces (rows : List (List Waves)) : List Bool :=
  (rows.getLast?.getD []).map (·.isTold)

/-- The waves of a big square that has some. -/
def toldWaves (rules : Rules) (head : Head) (left top : Traces) : Drawn BigWaves := do
  let steps := rules.steps head.part
  let rows (kind first : Nat) (steps : Steps) (lefts tops : List Bool) :
      Drawn (List (List Waves)) :=
    rowsOf (fun left top => wavesOf rules kind first steps (left.toNat + top.toNat))
      Waves.isTold Waves.isTold lefts tops
  let means ←
    if head.isParted then pure none
    else some <$> wavesOf rules 1 0 steps.means (left.means.toNat + top.means.toNat)
  let brightness ← match means with
    | none => rows 3 0 steps.small left.brightness top.brightness
    | some means =>
        withMeans (spreadMeans means.strengths) <$>
          rows 0 1 steps.small left.brightness top.brightness
  let blue ← rows 2 0 steps.colour left.blue top.blue
  let red ← rows 2 0 steps.colour left.red top.red
  pure
    { brightness, blue, red
      right :=
        { brightness := rightTraces brightness, blue := rightTraces blue, red := rightTraces red
          means := (means.map (·.isTold)).getD left.means }
      below :=
        { brightness := lowerTraces brightness, blue := lowerTraces blue, red := lowerTraces red
          means := (means.map (·.isTold)).getD top.means } }

/-- The waves of a big square, which may have none. -/
def bigWavesOf (rules : Rules) (left : Traces) : Head × Traces → Drawn BigWaves
  | (head, top) =>
      if head.isEmpty then
        pure
          { right := { Traces.none with means := head.isParted && left.means }
            below := { Traces.none with means := head.isParted && top.means } }
      else toldWaves rules head left top

/-- The waves of all big squares.  The rows of bits take turns. -/
def allWaves? (rules : Rules) :
    List (List Head) → List Traces → List OddsRow → Option (List (List BigWaves))
  | heads :: rest, tops, bits :: others => do
      let (row, bits) ← (rowOf (bigWavesOf rules) BigWaves.right .none (heads.zip tops)).run bits
      let rows ← allWaves? rules rest (row.map (·.below)) (others ++ [bits])
      some (row :: rows)
  | _, _, _ => some []

/-! ## Values -/

/-- A share of a number in units of the sixteenth bit. -/
def shareOf (share n : Int) : Int := (n * share).fdiv 65536

/-- Four values from the strengths of four waves. -/
def waveLine (a b c d : Int) : List Int :=
  let wide (n : Int) : Int := n + shareOf 20091 n
  let narrow (n : Int) : Int := shareOf 35468 n
  let odd := narrow b - wide d
  let even := wide b + narrow d
  [a + c + even, a - c + odd, a - c - odd, a + c - even]

/-- What the waves of a small square add to its values, row after row. -/
def waveValues (strengths : Array Int) : Array Int :=
  let at4 (values : Array Int) (n : Nat) : Int := (values[n]?).getD 0
  let columns := ((List.range 4).map fun i =>
    (waveLine (at4 strengths i) (at4 strengths (4 + i)) (at4 strengths (8 + i))
      (at4 strengths (12 + i))).toArray).toArray
  ((List.range 4).flatMap fun row =>
    let value (i : Nat) : Int := at4 ((columns[i]?).getD #[]) row
    (waveLine (value 0 + 4) (value 1) (value 2) (value 3)).map (·.fdiv 8)).toArray

/-- What waves add to values, by the row and the column of a small square and the place in it. -/
abbrev Additions := Array (Array (Array Int))

/-- What the waves of small squares add. -/
def additionsOf (rows : List (List Waves)) : Additions :=
  let values := rows.map fun row => (row.map fun waves => waveValues waves.strengths).toArray
  values.toArray

/-- What is added to a value of a square of small squares. -/
def additionAt (additions : Additions) (i j : Nat) : Int :=
  let small := (((additions[j / 4]?).getD #[])[i / 4]?).getD #[]
  (small[4 * (j % 4) + i % 4]?).getD 0

/-- The plane with a big square of a side whose upper left corner is at a place. -/
def Plane.putBig (plane : Plane) (x y side : Nat) (course : Course) (rows : List (List Waves)) :
    Plane :=
  let edges := plane.edges x y side
  let evenly := mean edges side (0 < x) (0 < y)
  let additions := additionsOf rows
  plane.put x y side fun i j => bigCourse course edges evenly i j + additionAt additions i j

/-- The plane with a small square whose upper left corner is at a place. -/
def Plane.putSmall (plane : Plane) (x y : Nat) (course : Course) (addition : Nat → Nat → Int) :
    Plane :=
  let edges := plane.smallEdges x y
  plane.put x y 4 fun i j => smallCourse course edges i j + addition i j

/-- The plane with the brightness of a big square. -/
def Plane.putBrightness (plane : Plane) (x y : Nat) (head : Head) (waves : BigWaves) : Plane :=
  if head.isParted then
    let additions := additionsOf waves.brightness
    (List.range 16).foldl
      (fun plane n =>
        let i := n % 4
        let j := n / 4
        let course := ((head.courses[j]?).getD [])[i]?.getD .even
        plane.putSmall (x + 4 * i) (y + 4 * j) course
          fun right down => additionAt additions (4 * i + right) (4 * j + down))
      plane
  else
    let course := ((head.courses[0]?).getD [])[0]?.getD .even
    plane.putBig x y 16 course waves.brightness

/-- A big square with its column and row. -/
structure Located where
  column : Nat
  row : Nat
  head : Head
  waves : BigWaves

/-- All big squares in the order of reading. -/
def located (heads : List (List Head)) (waves : List (List BigWaves)) : List Located :=
  ((heads.zip waves).mapIdx fun row (heads, waves) =>
    (heads.zip waves).mapIdx fun column (head, waves) => { column, row, head, waves }).flatten

/-! ## Smoothing -/

/-- How the seams of a big square are smoothed, if they are. -/
def Rules.softness? (rules : Rules) (head : Head) : Option Softness :=
  let quality := rules.quality head.part
  let level := if quality.isAdded then rules.smoothing.level + quality.level else quality.level
  rules.smoothing.softness? (max 0 (min 63 level)) head.isParted

/-- Whether a small square has any waves. -/
def Waves.isWavy (waves : Waves) : Bool := waves.isTold || sideValue waves.strengths 0 ≠ 0

/-- Whether the seams in a big square are smoothed: its small squares go on by themselves, or there
are waves. -/
def Located.hasInnerSeams (square : Located) : Bool :=
  square.head.isParted ||
    [square.waves.brightness, square.waves.blue, square.waves.red].any
      (·.any (·.any Waves.isWavy))

/-- The plane of big squares of a side with its seams smoothed. -/
def Plane.smooth (rules : Rules) (squares : List Located) (side : Nat) (isColour : Bool)
    (plane : Plane) : Plane :=
  squares.foldl
    (fun plane square =>
      match rules.softness? square.head with
      | none => plane
      | some softness =>
          if isColour && softness.isPlain then plane
          else
            plane.soften softness square.hasInnerSeams (side * square.column) (side * square.row)
              side)
    plane

/-! ## Rasters -/

/-- A channel from a number of sixty-fourths, rounded down. -/
def channelOf (n : Int) : Nat := clampedValue (n.fdiv 64)

/-- The pixel of a brightness and two differences of colour. -/
def pixelOf (brightness blue red : Int) : Pixel :=
  let part (n share : Int) : Int := (n * share).fdiv 256
  let light := part brightness 19077
  { red := channelOf (light + part red 26149 - 14234)
    green := channelOf (light - part blue 6419 - part red 13320 + 8708)
    blue := channelOf (light + part blue 33050 - 17685)
    alpha := 255 }

/-- The rows of bits for strengths: the lengths of all but the last one stand in front. -/
def strengthRows? (bytes : Array UInt8) (count : Nat) : Option (List OddsRow) := do
  let rec rows? (lengthPlace place : Nat) : Nat → Option (List OddsRow)
    | 0 => some [OddsRow.ofBytes (bytes.extract place bytes.size).toList]
    | count + 1 => do
        let length ← little? bytes lengthPlace 3
        let row ← slice? bytes place length
        let others ← rows? (lengthPlace + 3) (place + length) count
        some (OddsRow.ofBytes row :: others)
  let lengths := 3 * (count - 1)
  guard (lengths ≤ bytes.size)
  rows? 0 lengths (count - 1)

/-- A raster as it is told. -/
structure Telling where
  width : Nat
  height : Nat
  rules : Rules
  squares : List Located

/-- How many big squares cover a length. -/
def bigSquaresOver (length : Nat) : Nat := (length + 15) / 16

/-- What a row of bytes tells, if it tells of a raster. -/
def telling? (bytes : Array UInt8) : Option Telling := do
  let tag ← little? bytes 0 3
  guard (tag % 2 = 0)
  guard (slice? bytes 3 3 = some [0x9D, 0x01, 0x2A])
  let width := (← little? bytes 6 2) % twoTo 14
  let height := (← little? bytes 8 2) % twoTo 14
  guard (0 < width ∧ 0 < height)
  let length := tag / 32
  let first ← slice? bytes 10 length
  let (rules, bits) ← rules.run (.ofBytes first)
  let rows ← strengthRows? (bytes.extract (10 + length) bytes.size) rules.rowCount
  let columns := bigSquaresOver width
  let outside := List.replicate smallCount Course.even
  let (heads, _) ←
    (rowsOf (headOf rules) Head.right Head.below (List.replicate (bigSquaresOver height) outside)
      (List.replicate columns outside)).run bits
  let waves ← allWaves? rules heads (List.replicate columns .none) rows
  some { width, height, rules, squares := located heads waves }

/-- The plane of squares of a side that are put one after another, smoothed in the end. -/
def Telling.plane (telling : Telling) (side : Nat) (isColour : Bool)
    (put : Plane → Located → Plane) : Plane :=
  let blank : Plane :=
    .blank (side * bigSquaresOver telling.width) (side * bigSquaresOver telling.height)
  (telling.squares.foldl put blank).smooth telling.rules telling.squares side isColour

/-- The plane of brightness. -/
def Telling.brightness (telling : Telling) : Plane :=
  telling.plane 16 false fun plane square =>
    plane.putBrightness (16 * square.column) (16 * square.row) square.head square.waves

/-- A plane of colour. -/
def Telling.colour (telling : Telling) (rows : BigWaves → List (List Waves)) : Plane :=
  telling.plane 8 true fun plane square =>
    plane.putBig (8 * square.column) (8 * square.row) 8 square.head.colour (rows square.waves)

/-- The raster that is told. -/
def Telling.toRaster (telling : Telling) : Raster :=
  let brightness := telling.brightness
  let blue := telling.colour BigWaves.blue
  let red := telling.colour BigWaves.red
  { width := telling.width
    height := telling.height
    pixel := fun x y =>
      pixelOf (brightness.valueAt x y) (blue.valueAt (x / 2 : Nat) (y / 2 : Nat))
        (red.valueAt (x / 2 : Nat) (y / 2 : Nat)) }

/-- The raster of a row of bytes, if they are one. -/
def lossy? (bytes : Array UInt8) : Option Raster := (telling? bytes).map Telling.toRaster

end Slidecast.Picture.Webp
