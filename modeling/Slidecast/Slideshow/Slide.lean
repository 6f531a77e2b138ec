import Slidecast.Slideshow.Cut

/-!
# Slides

A slide is a picture with the time for which it is shown.  A slide lasts from its cut to the
next one, in whole milliseconds; where cuts are missing, or where nothing or less is left, it
lasts as long as a fallback says.

The slides are written as a playlist: a line with the path and a line with the duration for
each, and at the end the last path again, so that the last picture stays.
-/

set_option autoImplicit false

namespace Slidecast.Slideshow

open Number Files

/-- A picture and how many seconds it is shown. -/
structure Slide where
  path : Path
  duration : Double
  deriving DecidableEq

/-- Seconds rounded to whole milliseconds. -/
def roundMillis (seconds : Double) : Double := (seconds * 1000).round / 1000

/-- The time between the first two cuts in milliseconds, or the fallback. -/
def durationAt (fallback : Double) (cuts : List Double) : Double :=
  match cuts with
  | start :: stop :: _ =>
      let duration := roundMillis (stop - start)
      if 0 < duration then duration else fallback
  | _ => fallback

/-- The slides of a row of pictures. -/
def slides (fallback : Double) : List Path → List Double → List Slide
  | [], _ => []
  | path :: paths, cuts => ⟨path, durationAt fallback cuts⟩ :: slides fallback paths cuts.tail

/-! ## Playlists -/

/-- A quote ends the quoted text, stands by itself, and begins the quoted text again. -/
def quoteChar (c : Char) : List Char := if c = '\'' then ['\'', '\\', '\'', '\''] else [c]

/-- The line that names a picture. -/
def fileLine (path : Path) : List Char :=
  "file '".toList ++ path.shown.toList.flatMap quoteChar ++ ['\'', '\n']

/-- The line that gives a duration, with three places. -/
def durationLine (duration : Double) : List Char :=
  "duration ".toList ++ (duration.fixed 3).toList ++ ['\n']

/-- The text of a playlist. -/
def playlist (slides : List Slide) : String :=
  let lines := slides.flatMap fun slide => fileLine slide.path ++ durationLine slide.duration
  let last := slides.getLast?.map fun slide => fileLine slide.path
  String.ofList (lines ++ last.getD [])

/-- The name of the file in which a playlist is kept. -/
def playlistName : String := "inputs.txt"

end Slidecast.Slideshow
