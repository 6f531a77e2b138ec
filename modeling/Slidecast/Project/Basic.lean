import Slidecast.Project.Preset
import Slidecast.Project.HexColour
import Slidecast.Audio.Track
import Slidecast.Text.Blank

/-!
# Projects

A project says what a slideshow is made of: its pictures and sounds, its size and length, the
words at which pictures change, and what is spoken.  Its media are named by paths that start in
the directory of the project, unless they start at the root.

A width or a height that is given goes before that of the preset.
-/

set_option autoImplicit false

namespace Slidecast

open Files Number

/-- A sound of a project. -/
structure SoundSource where
  source : String
  volume : Single := 1
  /-- The second of the slideshow at which the sound begins. -/
  start : Double := 0
  deriving DecidableEq

/-- A slideshow that is to be made. -/
structure Project where
  name : String
  resolution : String := "hd"
  width : Option Nat := none
  height : Option Nat := none
  duration : Double
  background : String := "#000000"
  pictures : List String := []
  sounds : List SoundSource := []
  markers : List String := []
  /-- What is spoken. -/
  script : Option String := none
  deriving DecidableEq

/-- The path of a medium that is named in a project whose directory is `base`. -/
def mediaPath (base : Path) (source : String) : Path :=
  let own := Path.ofText source
  if own.isAbsolute then own.clean else (base / own).clean

namespace Project

/-- The size of the frames before it is checked. -/
def requestedSize (p : Project) : Except Failure FrameSize :=
  match p.width, p.height, preset? p.resolution with
  | some width, some height, _ => .ok ⟨width, height⟩
  | width, height, some size => .ok ⟨width.getD size.width, height.getD size.height⟩
  | _, _, none => .error (.invalidInput (.unknownResolution p.resolution))

/-- The size of the frames; neither side may be zero. -/
def frameSize (p : Project) : Except Failure FrameSize := do
  let size ← p.requestedSize
  if size.width = 0 ∨ size.height = 0 then
    .error (.invalidInput (.frameSize size.width size.height))
  else .ok size

/-- The colour on which pictures are laid. -/
def backgroundColour (p : Project) : Except Failure Colour :=
  match hexColour? p.background with
  | some colour => .ok colour
  | none => .error (.invalidInput (.background p.background))

/-- A project is refused for the first of these reasons: it has no name, its length is not
positive and finite, it has no pictures, its size or its background makes no sense. -/
def validate (p : Project) : Except Failure Unit := do
  if Text.isBlankText p.name then throw (.invalidInput .projectUnnamed)
  if ¬ (0 < p.duration ∧ p.duration.isFinite) then
    throw (.invalidInput (.projectDuration p.duration))
  if p.pictures.isEmpty then throw (.invalidInput .projectWithoutPictures)
  let _ ← p.frameSize
  let _ ← p.backgroundColour

/-- The paths of the pictures. -/
def picturePaths (p : Project) (base : Path) : List Path := p.pictures.map (mediaPath base)

/-- The sounds as tracks. -/
def tracks (p : Project) (base : Path) : List Audio.Track :=
  p.sounds.map fun sound => ⟨mediaPath base sound.source, sound.volume, sound.start⟩

end Project

end Slidecast
