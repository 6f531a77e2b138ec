import Slidecast.Job.Deliverables
import Slidecast.Project.Basic
import Slidecast.Settings.Basic
import Slidecast.Slideshow.Playlist
import Slidecast.Subtitle.Keeping
import Slidecast.Audio.Assembly
import Slidecast.Tool.Inquiry
import Slidecast.Speech.Utterance

/-!
# Jobs

A job makes all that a slideshow needs from a project and an utterance, in a directory of its own.

When the words of the utterance are known, three branches are worked on in turns: the frames and
the playlist, the subtitles, and the sound.  Every branch comes to its own end.  If several of
them fail, the first in this order is reported.  The manifest is written when all have succeeded.

A job that fails clears its directory away when all of its branches have ended, if the settings
ask for it.
-/

set_option autoImplicit false

namespace Slidecast

open Files Number Speech Progress Audio

/-- What a job is about. -/
structure Order where
  /-- The name of the job, which no other job has. -/
  id : String
  project : Project
  utterance : Utterance
  /-- The directory of the project. -/
  base : Path
  /-- When the job is done. -/
  createdAt : String

/-- How the branches of a job take turns, and the crew that works on its pictures.  Subtitles
take turns with pictures, and both of them with the sound. -/
structure Schedule where
  crew : Picture.Crew := {}
  subtitleTurns : List Turn := []
  soundTurns : List Turn := []
  deriving Inhabited

namespace Job

/-- Tells that a stage starts. -/
def starts (stage : Stage) : Action Unit := Action.post (·.start stage)

/-- Tells that a stage is completed, with details. -/
def completes (stage : Stage) (details : String) : Action Unit :=
  Action.post (·.complete stage (some details))

/-! ## The branches -/

/-- Makes the frames and then the playlist. -/
def makeVisuals (settings : Settings) (order : Order) (crew : Picture.Crew)
    (style : Picture.FrameStyle) (words : Transcript) (directory : Path) :
    Action (List Path × Path) := do
  starts .pictures
  let frames ← Picture.makeFrames style crew (order.project.picturePaths order.base) directory
  completes .pictures s!"{frames.length} images"
  starts .playlist
  let playlist ←
    Slideshow.keepPlaylist words settings.fallback order.project.markers frames directory
  completes .playlist playlist.shown
  pure (frames, playlist)

/-- Makes the subtitles. -/
def makeSubtitles (settings : Settings) (words : Transcript) (size : FrameSize)
    (directory : Path) : Action Path := do
  starts .subtitles
  let path ← Subtitle.keepScript words settings.subtitles size.width size.height directory
  completes .subtitles path.shown
  pure path

/-- The first track that exists and is not a sound file. -/
def foreignTrack? (tracks : List Track) (d : Disk) : Option Track :=
  tracks.find? fun t => d.hasPath t.source && !isSoundFile d t.source

/-- A track that needs no more than to be cut. -/
def isPlain (t : Track) : Bool := t.offset.equals 0 && t.volume.equals 1

/-- Cuts a single plain track, and mixes any others. -/
def assembleSound (settings : Settings) (toolbox : Toolbox) (tracks : List Track)
    (duration : Double) (directory : Path) : Action Path :=
  let mixed :=
    mix toolbox settings.dropout tracks duration (directory / .ofText (mixName duration))
  match tracks with
  | [single] =>
      if isPlain single then
        trim toolbox single.source duration (directory / .ofText (trimName single.source duration))
      else mixed
  | _ => mixed

/-- Makes the sound, if there are any tracks. -/
def makeSound (settings : Settings) (toolbox : Toolbox) (tracks : List Track)
    (duration : Double) (directory : Path) : Action (Option Path) := do
  starts .audio
  if tracks.isEmpty then
    completes .audio "no audio"
    pure none
  else
    match ← Action.ask (foreignTrack? tracks) with
    | some track => throw (.invalidInput (.audioFormat track.source))
    | none =>
        let path ← assembleSound settings toolbox tracks duration directory
        completes .audio path.shown
        pure (some path)

/-! ## The whole job -/

/-- Works on the three branches in turns. -/
def makeBranches (settings : Settings) (toolbox : Toolbox) (order : Order) (schedule : Schedule)
    (directory : Path) (size : FrameSize) (tracks : List Track) (words : Transcript)
    (style : Picture.FrameStyle) :
    Action ((Except Failure (List Path × Path) × Except Failure Path) ×
      Except Failure (Option Path)) := do
  let visuals := makeVisuals settings order schedule.crew style words directory
  let subtitles := makeSubtitles settings words size directory
  let sound := makeSound settings toolbox tracks order.project.duration directory
  let (first, sound) ← Action.together schedule.soundTurns
    (Action.together schedule.subtitleTurns visuals subtitles) sound
  pure (← Action.check first, sound)

/-- Does what there is to do once the size and the tracks are known: finds the words of the
utterance, works on the branches, and writes the manifest. -/
def makeParts (settings : Settings) (toolbox : Toolbox) (order : Order) (schedule : Schedule)
    (directory : Path) (size : FrameSize) (tracks : List Track) : Action Deliverables := do
  starts .transcript
  let words ← Action.check order.utterance.transcript
  completes .transcript s!"{words.size} words"
  let background ← Action.check order.project.backgroundColour
  let style :=
    { settings.frame with width := size.width, height := size.height, background := background }
  let ((visuals, subtitles), sound) ←
    makeBranches settings toolbox order schedule directory size tracks words style
  let (frames, playlist) ← Action.check visuals
  let subtitles ← Action.check subtitles
  let sound ← Action.check sound
  let deliverables : Deliverables :=
    { id := order.id, directory := directory, frames := frames, playlist := playlist,
      subtitles := subtitles, sound := sound, width := size.width, height := size.height,
      duration := order.project.duration, wordCount := words.size,
      createdAt := order.createdAt }
  let manifest ← Action.check deliverables.manifest
  Action.changeDisk (·.write (directory / ⟨manifestName⟩) (.text manifest))
  pure deliverables

/-- Does a job in its directory.  The media tool is asked for its version if there are tracks. -/
def makeAll (settings : Settings) (toolbox : Toolbox) (order : Order) (schedule : Schedule)
    (directory : Path) : Action Deliverables := do
  let size ← Action.check order.project.frameSize
  let tracks := order.project.tracks order.base
  unless tracks.isEmpty do
    let _ ← versionLine toolbox
  makeParts settings toolbox order schedule directory size tracks

/-- Clears the directory of a job away, as far as that is possible. -/
def clearAway (directory : Path) : Action Unit :=
  Action.step fun w =>
    match w.disk.removeTree directory with
    | .ok disk => (.ok (), { w with disk := disk })
    | .error _ => (.ok (), w)

/-- Does a job: checks the settings and the project, makes the directory of the job, forgets the
stages of earlier jobs, and makes all that is to be delivered. -/
def process (settings : Settings) (toolbox : Toolbox) (order : Order) (schedule : Schedule) :
    Action Deliverables := do
  Action.check settings.validate
  Action.check order.project.validate
  let directory ← Action.ask (·.absolute (settings.root / .ofText order.id))
  Action.provideDirectory directory
  Action.post Board.reset
  match ← Action.attempt (makeAll settings toolbox order schedule directory) with
  | .ok deliverables => pure deliverables
  | .error failure =>
      if settings.cleansUp then clearAway directory
      throw failure

end Job

end Slidecast
