import Slidecast.Action
import Slidecast.Subtitle.Script

/-!
# Keeping the subtitles

The subtitles of a speech are kept in a file of a directory, which is made if it is missing.
-/

set_option autoImplicit false

namespace Slidecast.Subtitle

open Files Speech

/-- The script of a speech for frames of the given size. -/
def scriptOf (t : Transcript) (s : Style) (width height : Nat) : String :=
  script (captions t s.wordsPerLine) s width height

/-- Writes the script of a speech; gives its path. -/
def keepScript (t : Transcript) (s : Style) (width height : Nat) (directory : Path) :
    Action Path := do
  Action.provideDirectory directory
  let path := directory / ⟨scriptName⟩
  Action.changeDisk (·.write path (.text (scriptOf t s width height)))
  pure path

end Slidecast.Subtitle
