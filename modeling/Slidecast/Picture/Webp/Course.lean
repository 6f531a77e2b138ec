import Slidecast.Number.Bits

/-!
# The course of a square

Before anything is told of a square, it is taken to go on from the pixels around it: evenly, or in
the direction of a course.  A plane of values grows square by square, and the edges of a square are
values that have been worked out before; outside of the plane there are fixed ones.
-/

set_option autoImplicit false

namespace Slidecast.Picture.Webp

/-- How a square goes on from its edges. -/
inductive Course where
  /-- All of it is the mean of the edges. -/
  | even
  /-- It rises as the edges do. -/
  | slope
  | down
  | across
  /-- Down to the right, halfway between down and across. -/
  | downRight
  /-- Down to the right, nearer to down. -/
  | steepRight
  /-- Down to the left. -/
  | downLeft
  /-- Down to the left, nearer to down. -/
  | steepLeft
  /-- Down to the right, nearer to across. -/
  | flatDown
  /-- Up to the right, nearer to across. -/
  | flatUp
  deriving DecidableEq, Inhabited

/-- The number of a course in tables of odds. -/
def Course.number : Course → Nat
  | .even => 0
  | .slope => 1
  | .down => 2
  | .across => 3
  | .downRight => 4
  | .steepRight => 5
  | .downLeft => 6
  | .steepLeft => 7
  | .flatDown => 8
  | .flatUp => 9

/-! ## Planes -/

/-- A rectangle of values in rows. -/
structure Plane where
  width : Nat
  values : Array Nat

/-- The plane with a size and no values. -/
def Plane.blank (width height : Nat) : Plane :=
  { width, values := Array.replicate (width * height) 0 }

/-- The value at a place.  Above the plane there is a darker grey than on its left. -/
def Plane.valueAt (plane : Plane) (x y : Int) : Int :=
  if y < 0 then 127
  else if x < 0 then 129
  else (plane.values[y.toNat * plane.width + x.toNat]?).getD 0

/-- A number, moved to the nearest one from 0 to 255. -/
def clampedValue (n : Int) : Nat := min n.toNat 255

/-- The plane with the values of a square, which has a side and its upper left corner at a place. -/
def Plane.put (plane : Plane) (x y side : Nat) (value : Nat → Nat → Int) : Plane :=
  let width := plane.width
  { plane with
    values := (List.range (side * side)).foldl
      (fun values place =>
        let i := place % side
        let j := place / side
        values.setIfInBounds ((y + j) * width + (x + i)) (clampedValue (value i j)))
      plane.values }

/-! ## Edges -/

/-- The values around a square: those on its left from the top down, the one at the upper left
corner, and those above it, which go on to the right of a small square. -/
structure Edges where
  left : Array Int
  corner : Int
  top : Array Int

/-- A value of an edge; where the edge has ended, its last one. -/
def edgeValue (edge : Array Int) (n : Nat) : Int := (edge[min n (edge.size - 1)]?).getD 0

/-- The edges of a square of a side at a place, without those to the right of it. -/
def Plane.edges (plane : Plane) (x y side : Nat) : Edges :=
  { left := ((List.range side).map fun j => plane.valueAt (x - 1 : Int) (y + j : Nat)).toArray
    corner := plane.valueAt (x - 1 : Int) (y - 1 : Int)
    top := ((List.range side).map fun i => plane.valueAt (x + i : Nat) (y - 1 : Int)).toArray }

/-- The edges of a small square in a big one.  To the right of a big square only values above it are
known: they are taken for all small squares at its right end, and at the right end of the plane the
last value is taken for them. -/
def Plane.smallEdges (plane : Plane) (x y : Nat) : Edges :=
  let edges := plane.edges x y 4
  let row : Int := if x % 16 = 12 then (y - y % 16 : Nat) - 1 else (y : Int) - 1
  let right := (List.range 4).map fun i =>
    plane.valueAt (min (x + 4 + i) (plane.width - 1) : Nat) row
  { edges with top := edges.top ++ right.toArray }

/-! ## Big squares -/

/-- The sum of the first values of an edge. -/
def edgeSum (edge : Array Int) (side : Nat) : Int :=
  (List.range side).foldl (fun sum n => sum + edgeValue edge n) 0

/-- The mean of the edges of a square that stand in the plane, or a grey if none does. -/
def mean (edges : Edges) (side : Nat) (hasLeft hasTop : Bool) : Int :=
  let left := edgeSum edges.left side
  let top := edgeSum edges.top side
  match hasLeft, hasTop with
  | true, true => (left + top + side) / (2 * side : Nat)
  | true, false => (left + (side / 2 : Nat)) / side
  | false, true => (top + (side / 2 : Nat)) / side
  | false, false => 128

/-- What the edges add up to without the corner. -/
def slopeAt (edges : Edges) (i j : Nat) : Int :=
  clampedValue (edgeValue edges.left j + edgeValue edges.top i - edges.corner)

/-- The values with which a big square goes on. -/
def bigCourse (course : Course) (edges : Edges) (evenly : Int) (i j : Nat) : Int :=
  match course with
  | .slope => slopeAt edges i j
  | .down => edgeValue edges.top i
  | .across => edgeValue edges.left j
  | _ => evenly

/-! ## Small squares -/

/-- The edges of a small square as a single row, from the lower left corner up and then to the
right; the upper left corner has the number four. -/
def Edges.around (edges : Edges) : Array Int :=
  (edges.left.reverse.push edges.corner) ++ edges.top

/-- The mean of the value with a number and the one after it. -/
def meanOfTwo (edge : Array Int) (n : Nat) : Int :=
  (edgeValue edge n + edgeValue edge (n + 1) + 1) / 2

/-- The mean of the value with a number and the ones on both sides of it, in which it counts
twice. -/
def meanOfThree (edge : Array Int) (n : Nat) : Int :=
  (edgeValue edge (n - 1) + 2 * edgeValue edge n + edgeValue edge (n + 1) + 2) / 4

/-- The value so many half steps along an edge from the corner, which has the number four; in front
of it there are the values of the other edge. -/
def alongEdge (edge : Array Int) (halfSteps : Int) : Int :=
  if halfSteps < 0 then meanOfThree edge (4 + halfSteps + 1).toNat
  else if halfSteps % 2 = 0 then meanOfTwo edge (4 + halfSteps / 2).toNat
  else meanOfThree edge (4 + halfSteps / 2 + 1).toNat

/-- The values of a small square that goes down to the left, nearer to down.  The last two of them
stand a step further. -/
def steepLeftAt (around : Array Int) (i j : Nat) : Int :=
  if i = 3 ∧ 2 ≤ j then meanOfThree around (8 + j)
  else if j % 2 = 0 then meanOfTwo around (5 + i + j / 2)
  else meanOfThree around (6 + i + j / 2)

/-- The values of a small square that goes up to the right, nearer to across. -/
def flatUpAt (left : Array Int) (i j : Nat) : Int :=
  let halfSteps := i + 2 * j
  if halfSteps % 2 = 0 then meanOfTwo left (halfSteps / 2)
  else
    let n := halfSteps / 2
    (edgeValue left n + 2 * edgeValue left (n + 1) + edgeValue left (n + 2) + 2) / 4

/-- The values with which a small square goes on. -/
def smallCourse (course : Course) (edges : Edges) (i j : Nat) : Int :=
  let around := edges.around
  match course with
  | .even => (edgeSum edges.left 4 + edgeSum edges.top 4 + 4) / 8
  | .slope => slopeAt edges i j
  | .down => meanOfThree around (5 + i)
  | .across =>
      if j = 3 then (edgeValue edges.left 2 + 3 * edgeValue edges.left 3 + 2) / 4
      else meanOfThree around (3 - j)
  | .downRight => meanOfThree around (4 + i - j)
  | .steepRight => alongEdge around (2 * i - j : Int)
  | .downLeft => meanOfThree around (6 + i + j)
  | .steepLeft => steepLeftAt around i j
  | .flatDown => alongEdge (around.extract 0 9).reverse (2 * j - i : Int)
  | .flatUp => flatUpAt edges.left i j

end Slidecast.Picture.Webp
