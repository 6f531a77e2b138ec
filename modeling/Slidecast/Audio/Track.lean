import Slidecast.Failure
import Slidecast.Files.Disk
import Slidecast.Text.LowerCase

/-!
# Sound tracks

A track is a sound file with the volume at which it is heard and the second at which it begins.
A sound file is recognised by the extension of its name, in upper or lower case.  Sound that is
made from tracks has a name that gives its length in whole seconds.
-/

set_option autoImplicit false

namespace Slidecast.Audio

open Number Files

/-- A track that is heard. -/
structure Track where
  source : Path
  volume : Single
  offset : Double
  deriving DecidableEq

/-- A track is refused if its volume or its offset is negative or not a finite number. -/
def Track.validate (t : Track) : Except Failure Unit :=
  if ¬ (0 ≤ t.volume ∧ t.volume.isFinite) then
    .error (.invalidInput (.trackVolume t.source t.volume))
  else if ¬ (0 ≤ t.offset ∧ t.offset.isFinite) then
    .error (.invalidInput (.trackOffset t.source t.offset))
  else .ok ()

/-- The length of a sound has to be positive and finite. -/
def validateLength (seconds : Double) : Except Failure Unit :=
  if 0 < seconds ∧ seconds.isFinite then .ok ()
  else .error (.invalidInput (.trackDuration seconds))

/-! ## Sound files -/

/-- The extensions of sound files. -/
def extensions : List String := ["mp3", "wav", "aac", "ogg", "m4a", "flac"]

/-- The name of the path ends like the name of a sound file. -/
def hasSoundName (p : Path) : Bool :=
  p.extension?.any fun extension => extensions.contains (Text.lower (Text.shown extension))

/-- The path leads to a sound file. -/
def isSoundFile (d : Disk) (p : Path) : Bool := d.hasFile p && hasSoundName p

/-! ## Names of sound that is made -/

/-- The largest number of seconds that is written in a name. -/
def longestNamed : Nat := largest 64

/-- A length in whole seconds, as it is written in a name. -/
def lengthText (seconds : Double) : String := toString (seconds.truncate longestNamed) ++ "s"

/-- The name of a track that is cut to a length. -/
def trimName (source : Path) (seconds : Double) : String :=
  "trimmed-" ++ lengthText seconds ++ "-" ++ (source.fileName?.map Text.shown).getD "audio.mp3"

/-- The name of a mix of tracks that has a length. -/
def mixName (seconds : Double) : String := "mixed-audio-" ++ lengthText seconds ++ ".mp3"

end Slidecast.Audio
