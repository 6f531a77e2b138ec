import Slidecast.Action
import Slidecast.Slideshow.Slide

/-!
# Keeping the playlist

The playlist of a slideshow is cut to the speech and kept in a file of a directory, which is made
if it is missing.
-/

set_option autoImplicit false

namespace Slidecast.Slideshow

open Number Files Speech

/-- The slides of a slideshow that goes with a speech. -/
def slidesOf (t : Transcript) (fallback : Double) (markers : List String) (pictures : List Path) :
    List Slide :=
  slides fallback pictures (cuts t pictures.length markers).2

/-- Writes the playlist of a slideshow; gives its path. -/
def keepPlaylist (t : Transcript) (fallback : Double) (markers : List String)
    (pictures : List Path) (directory : Path) : Action Path := do
  if pictures.isEmpty then throw (.invalidInput .noSlides)
  Action.provideDirectory directory
  let path := directory / ⟨playlistName⟩
  Action.changeDisk
    (·.write path (.text (playlist (slidesOf t fallback markers pictures))))
  pure path

end Slidecast.Slideshow
