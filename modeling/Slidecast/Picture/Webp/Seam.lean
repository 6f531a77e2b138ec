import Slidecast.Picture.Webp.Course

/-!
# Seams

Squares that have been made one by one show seams.  Where the values on both sides of a seam differ
little, the difference is spread over them; where they differ much, it belongs to the picture and
stays.  How much is little depends on how coarse the strengths of waves are.
-/

set_option autoImplicit false

namespace Slidecast.Picture.Webp

/-- How seams are smoothed. -/
structure Softness where
  /-- Whether only two values change at a seam, and only in the plane of brightness. -/
  isPlain : Bool
  /-- How far values may differ across a seam. -/
  limit : Nat
  /-- How far neighbours on one side of it may differ. -/
  innerLimit : Nat
  /-- From which difference of neighbours on a side is rough. -/
  rough : Nat

/-- What is told of the smoothing of all seams. -/
structure Smoothing where
  isPlain : Bool
  level : Nat
  sharpness : Nat
  /-- What is added to the level. -/
  offset : Int
  /-- What is added for big squares whose small squares have courses of their own. -/
  partedOffset : Int

/-- The smoothing with a level, or none. -/
def Smoothing.softness? (smoothing : Smoothing) (level : Int) (isParted : Bool) :
    Option Softness :=
  let level := level + smoothing.offset + if isParted then smoothing.partedOffset else 0
  let level := min level.toNat 63
  if smoothing.level = 0 ∨ level = 0 then none
  else
    let sharpness := smoothing.sharpness
    let innerLimit :=
      if sharpness = 0 then level
      else min (if 4 < sharpness then level / 4 else level / 2) (9 - sharpness)
    let innerLimit := max 1 innerLimit
    some
      { isPlain := smoothing.isPlain
        limit := 2 * level + innerLimit
        innerLimit
        rough := if 40 ≤ level then 2 else if 15 ≤ level then 1 else 0 }

/-! ## Lines across a seam -/

/-- Values on a line across a seam, four on each side, the nearest one first. -/
structure Crossing where
  before : Array Int
  behind : Array Int

/-- A value on one side of a seam. -/
def sideValue (side : Array Int) (n : Nat) : Int := (side[n]?).getD 0

/-- A number, moved to the nearest one of eight bits with a sign, or of five bits. -/
def signedByte (n : Int) : Int := max (-128) (min 127 n)

@[inherit_doc signedByte]
def signedSmall (n : Int) : Int := max (-16) (min 15 n)

/-- Whether two numbers differ by no more than a limit. -/
def areNear (limit : Nat) (m n : Int) : Bool := (m - n).natAbs ≤ limit

/-- Whether the values at a seam differ little. -/
def Crossing.isSmooth (c : Crossing) (limit : Nat) : Bool :=
  4 * (sideValue c.before 0 - sideValue c.behind 0).natAbs
    + (sideValue c.before 1 - sideValue c.behind 1).natAbs ≤ 2 * limit + 1

/-- Whether all neighbours on both sides differ little. -/
def Crossing.hasSmoothSides (c : Crossing) (limit : Nat) : Bool :=
  [c.before, c.behind].all fun side =>
    (List.range 3).all fun n => areNear limit (sideValue side n) (sideValue side (n + 1))

/-- Whether the nearest neighbours on a side differ much. -/
def Crossing.isRough (c : Crossing) (rough : Nat) : Bool :=
  [c.before, c.behind].any fun side => !areNear rough (sideValue side 0) (sideValue side 1)

/-- The line with changes of its values, the nearest ones first: what is taken from a value behind
the seam, and what is given to one before it. -/
def Crossing.changed (c : Crossing) (changes : List (Int × Int)) : Crossing :=
  let changed (side : Array Int) (n : Nat) (change : Int) : Array Int :=
    side.setIfInBounds n (clampedValue (sideValue side n + change))
  changes.zipIdx.foldl
    (fun c ((taken, given), n) =>
      { before := changed c.before n given, behind := changed c.behind n (-taken) })
    c

/-- Three times the difference across a seam. -/
def Crossing.step (c : Crossing) : Int := 3 * (sideValue c.behind 0 - sideValue c.before 0)

/-- The difference between the second values. -/
def Crossing.outerStep (c : Crossing) : Int :=
  signedByte (sideValue c.before 1 - sideValue c.behind 1)

/-- The changes of the nearest values by a difference. -/
def nearest (difference : Int) : Int × Int :=
  (signedSmall ((difference + 4).fdiv 8), signedSmall ((difference + 3).fdiv 8))

/-- The line with its two nearest values changed. -/
def Crossing.twoChanged (c : Crossing) : Crossing := c.changed [nearest (c.step + c.outerStep)]

/-- The line with four values changed. -/
def Crossing.fourChanged (c : Crossing) : Crossing :=
  let first := nearest c.step
  let second := (first.1 + 1).fdiv 2
  c.changed [first, (second, second)]

/-- The line with six values changed. -/
def Crossing.sixChanged (c : Crossing) : Crossing :=
  let difference := signedByte (c.step + c.outerStep)
  c.changed ([27, 18, 9].map fun share =>
    let change := (share * difference + 63).fdiv 128
    (change, change))

/-- The line, smoothed.  Between big squares the limit is wider and more values change. -/
def Crossing.softened (softness : Softness) (isBig : Bool) (c : Crossing) : Crossing :=
  let limit := if isBig then softness.limit + 4 else softness.limit
  if !c.isSmooth limit then c
  else if softness.isPlain then c.twoChanged
  else if !c.hasSmoothSides softness.innerLimit then c
  else if c.isRough softness.rough then c.twoChanged
  else if isBig then c.sixChanged
  else c.fourChanged

/-! ## Seams of squares -/

/-- The plane with a line across a seam smoothed.  The first value behind the seam is at a place,
and neighbours are a step away from each other. -/
def Plane.softenLine (softness : Softness) (isBig : Bool) (step : Nat) (plane : Plane)
    (place : Nat) : Plane :=
  let valueAt (place : Nat) : Int := (plane.values[place]?).getD 0
  let c : Crossing :=
    { before := ((List.range 4).map fun n => valueAt (place - (n + 1) * step)).toArray
      behind := ((List.range 4).map fun n => valueAt (place + n * step)).toArray }
  let c := c.softened softness isBig
  { plane with
    values := (List.range 3).foldl
      (fun values n =>
        (values.setIfInBounds (place - (n + 1) * step) (sideValue c.before n).toNat).setIfInBounds
          (place + n * step) (sideValue c.behind n).toNat)
      plane.values }

/-- The plane with the seam on the left of a square of a side smoothed. -/
def Plane.softenLeft (softness : Softness) (isBig : Bool) (x y side : Nat) (plane : Plane) :
    Plane :=
  let width := plane.width
  (List.range side).foldl
    (fun plane n => plane.softenLine softness isBig 1 ((y + n) * width + x)) plane

/-- The plane with the seam above a square of a side smoothed. -/
def Plane.softenTop (softness : Softness) (isBig : Bool) (x y side : Nat) (plane : Plane) :
    Plane :=
  let width := plane.width
  (List.range side).foldl
    (fun plane n => plane.softenLine softness isBig width (y * width + x + n)) plane

/-- The plane with the seams of a big square smoothed, and those in it if there are any. -/
def Plane.soften (softness : Softness) (hasInner : Bool) (x y side : Nat) (plane : Plane) :
    Plane :=
  let inner := if hasInner then ((List.range (side / 4)).drop 1).map (4 * ·) else []
  let plane := if 0 < x then plane.softenLeft softness true x y side else plane
  let plane := inner.foldl
    (fun plane n => plane.softenLeft softness false (x + n) y side) plane
  let plane := if 0 < y then plane.softenTop softness true x y side else plane
  inner.foldl (fun plane n => plane.softenTop softness false x (y + n) side) plane

end Slidecast.Picture.Webp
