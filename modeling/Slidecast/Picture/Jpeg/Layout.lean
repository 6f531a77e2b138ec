import Slidecast.Number.Bits

/-!
# Planes of squares

A raster is kept in planes, one for each channel.  A plane may be coarser than the raster.  It
consists of squares of eight times eight samples, and the squares of all planes that belong to the
same part of the raster form a group.
-/

set_option autoImplicit false

namespace Slidecast.Picture.Jpeg

/-- A plane of samples. -/
structure Plane where
  /-- The number by which a scan calls the plane. -/
  name : Nat
  /-- How many squares of the plane stand side by side in a group. -/
  across : Nat
  /-- How many squares of the plane stand one below the other in a group. -/
  down : Nat
  /-- The number of the table with the steps of its waves. -/
  steps : Nat

/-- The planes of a raster. -/
structure Layout where
  width : Nat
  height : Nat
  planes : List Plane
  /-- Whether the planes come in scans, each finer than the one before. -/
  progressive : Bool

/-- A quotient, rounded up. -/
def divideUp (n d : Nat) : Nat := (n + d - 1) / d

namespace Layout

/-- How many squares side by side a group has at most. -/
def mostAcross (layout : Layout) : Nat := (layout.planes.map Plane.across).foldl max 1

/-- How many squares one below the other a group has at most. -/
def mostDown (layout : Layout) : Nat := (layout.planes.map Plane.down).foldl max 1

/-- How many groups stand side by side. -/
def groupsAcross (layout : Layout) : Nat := divideUp layout.width (8 * layout.mostAcross)

/-- How many groups stand one below the other. -/
def groupsDown (layout : Layout) : Nat := divideUp layout.height (8 * layout.mostDown)

/-- How many squares stand side by side in a plane. -/
def squaresAcross (layout : Layout) (plane : Plane) : Nat := layout.groupsAcross * plane.across

/-- How many squares a plane has. -/
def squareCount (layout : Layout) (plane : Plane) : Nat :=
  layout.squaresAcross plane * (layout.groupsDown * plane.down)

/-- The number of the first square of a plane, when the squares of all planes are counted. -/
def firstSquare (layout : Layout) (index : Nat) : Nat :=
  ((layout.planes.take index).map layout.squareCount).foldl (· + ·) 0

/-- How many squares there are in all planes. -/
def allSquares (layout : Layout) : Nat := layout.firstSquare layout.planes.length

/-- How many squares of a plane have a part of the raster, side by side and one below the other. -/
def usedSquares (layout : Layout) (plane : Plane) : Nat × Nat :=
  ( divideUp (divideUp (layout.width * plane.across) layout.mostAcross) 8,
    divideUp (divideUp (layout.height * plane.down) layout.mostDown) 8 )

/-- How many groups a scan of some planes goes through; in a scan of one plane, each square is a
group of its own. -/
def scanGroups (layout : Layout) : List Nat → Nat
  | [index] =>
      match layout.planes[index]? with
      | some plane => let (across, down) := layout.usedSquares plane; across * down
      | none => 0
  | _ => layout.groupsAcross * layout.groupsDown

/-- The squares of a plane in a group. -/
def squaresInGroup (layout : Layout) (group index : Nat) (plane : Plane) : List Nat :=
  let row := group / layout.groupsAcross
  let column := group % layout.groupsAcross
  (List.range plane.down).flatMap fun j =>
    (List.range plane.across).map fun i =>
      layout.firstSquare index + (row * plane.down + j) * layout.squaresAcross plane +
        (column * plane.across + i)

/-- The squares of a group of a scan, each with the number of its plane. -/
def scanSquares (layout : Layout) (indices : List Nat) (group : Nat) : List (Nat × Nat) :=
  match indices with
  | [index] =>
      match layout.planes[index]? with
      | some plane =>
          let (across, _) := layout.usedSquares plane
          [(index, layout.firstSquare index + group / across * layout.squaresAcross plane +
            group % across)]
      | none => []
  | _ =>
      indices.flatMap fun index =>
        match layout.planes[index]? with
        | some plane => (layout.squaresInGroup group index plane).map fun square => (index, square)
        | none => []

end Layout

end Slidecast.Picture.Jpeg
