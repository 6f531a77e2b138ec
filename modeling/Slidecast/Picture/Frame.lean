import Slidecast.Picture.Crop
import Slidecast.Picture.Darkroom
import Slidecast.Action

/-!
# Frames

A frame is a picture in the size of the slideshow: cut to its shape, changed to its size, and
laid on a background.  Pictures are read, changed in size and stored in a darkroom.

The pictures of a batch are worked on by a crew, in any order.  When one of them fails, the ones
that are in flight are still finished, no other is begun, and the batch fails: no frame of it is
left.  If several fail, the first of them in the row is reported.
-/

set_option autoImplicit false

namespace Slidecast.Picture

open Number Files

/-- What frames look like. -/
structure FrameStyle where
  width : Nat := 1080
  height : Nat := 1920
  /-- How much is kept when frames are stored, from 1 to 100. -/
  quality : Nat := 95
  background : Colour := ⟨0, 0, 0⟩
  deriving DecidableEq, Inhabited

/-- The name of a frame. -/
def frameName (index : Nat) : String := "proc_" ++ toString index ++ ".jpg"

/-! ## One frame -/

/-- The picture at a path, if there is one. -/
def raster? (room : Darkroom) (d : Disk) (p : Path) : Option Raster :=
  (d.read p).toOption.bind (room.decode p)

/-- The frame of a picture. -/
def frameOf (room : Darkroom) (style : FrameStyle) (raster : Raster) : Raster :=
  let region := centred raster.width raster.height style.width style.height
  let kept :=
    if region.isWhole raster.width raster.height then raster
    else raster.window region.x region.y region.width region.height
  (room.resize kept style.width style.height).flatten style.background

/-- Stores the frame of a picture at a path. -/
def storeFrame (room : Darkroom) (style : FrameStyle) (raster : Raster) (target : Path) (d : Disk) :
    Except Failure Unit × Disk :=
  let print := room.encode style.quality (frameOf room style raster)
  match d.write target print.content with
  | .error fault => (.error (.io fault), d)
  | .ok d' => (if print.isWhole then .ok () else .error .pictureSize, d')

/-- Makes the frame of the picture at a path and stores it at another path. -/
def makeFrame (room : Darkroom) (style : FrameStyle) (source target : Path) (d : Disk) :
    Except Failure Unit × Disk :=
  if d.hasPath source then
    match raster? room d source with
    | none => (.error (.pictureProcessing (.unreadable source)), d)
    | some raster =>
        if raster.width = 0 ∨ raster.height = 0 then
          (.error (.pictureProcessing (.empty source)), d)
        else storeFrame room style raster target d
  else (.error (.fileNotFound (.picture source)), d)

/-- Makes a frame as one step. -/
def renderFrame (room : Darkroom) (style : FrameStyle) (source target : Path) : Action Unit :=
  Action.step fun w =>
    let (result, disk) := makeFrame room style source target w.disk
    (result, { w with disk := disk })

/-! ## Batches -/

/-- How a batch is worked on: which pictures come first, how many are still finished after the first
that fails, and in which darkroom. -/
structure Crew where
  order : List Nat := []
  inFlight : Nat := 0
  darkroom : Darkroom := .standard
  deriving Inhabited

/-- The numbers below `count` in the order of a crew, each of them once. -/
def Crew.sequence (crew : Crew) (count : Nat) : List Nat :=
  (crew.order.filter (· < count) ++ List.range count).eraseDups

/-- A picture of a batch: its number, where it is, and where its frame goes. -/
structure Job where
  number : Nat
  source : Path
  target : Path
  deriving DecidableEq

/-- Works on all pictures; gives the failures with the numbers of their pictures. -/
def finish (room : Darkroom) (style : FrameStyle) : List Job → Action (List (Nat × Failure))
  | [] => pure []
  | job :: jobs => do
      match ← Action.attempt (renderFrame room style job.source job.target) with
      | .ok () => finish room style jobs
      | .error failure => do
          let others ← finish room style jobs
          pure ((job.number, failure) :: others)

/-- Works on pictures up to the first that fails, and on those that are then in flight; gives the
failures with the numbers of their pictures. -/
def workOn (room : Darkroom) (style : FrameStyle) (inFlight : Nat) :
    List Job → Action (List (Nat × Failure))
  | [] => pure []
  | job :: jobs => do
      match ← Action.attempt (renderFrame room style job.source job.target) with
      | .ok () => workOn room style inFlight jobs
      | .error failure => do
          let others ← finish room style (jobs.take inFlight)
          pure ((job.number, failure) :: others)

/-- Of numbered failures, the one with the least number. -/
def firstFailure : List (Nat × Failure) → Option (Nat × Failure)
  | [] => none
  | (number, failure) :: others =>
      match firstFailure others with
      | some other => if other.1 < number then some other else some (number, failure)
      | none => some (number, failure)

/-- Where the frames of a batch go. -/
def targets (directory : Path) (count : Nat) : List Path :=
  (List.range count).map fun index => directory / ⟨frameName index⟩

/-- The pictures of a batch in the order of a crew. -/
def jobs (crew : Crew) (sources : List Path) (directory : Path) : List Job :=
  (crew.sequence sources.length).filterMap fun number =>
    sources[number]?.map fun source => ⟨number, source, directory / ⟨frameName number⟩⟩

/-- Works on a batch and fails if a picture did. -/
def work (style : FrameStyle) (crew : Crew) (sources : List Path) (directory : Path) :
    Action Unit := do
  let failures ← workOn crew.darkroom style crew.inFlight (jobs crew sources directory)
  match firstFailure failures with
  | some (_, failure) => throw failure
  | none => pure ()

/-- Makes the frames of a row of pictures in a directory; gives their paths in the same order. -/
def makeFrames (style : FrameStyle) (crew : Crew) (sources : List Path) (directory : Path) :
    Action (List Path) := do
  if sources.isEmpty then throw (.invalidInput .noPictures)
  Action.provideDirectory directory
  let paths := targets directory sources.length
  Action.keeping ⟨paths⟩ (work style crew sources directory)
  pure paths

end Slidecast.Picture
