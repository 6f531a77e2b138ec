import Slidecast.Action
import Slidecast.Audio.Track
import Slidecast.Audio.Mixdown

/-!
# Making sound

A single track is cut to a length without a change of its sound; several tracks are mixed into
one.  Either takes one call of the media tool, whose last argument names the file that is made.
If the call fails, nothing is left of that file.  The tool is told paths as they are shown.

Tracks that do not exist are left out of a mix, but they are checked like the others.
-/

set_option autoImplicit false

namespace Slidecast.Audio

open Number Files

/-- The arguments of the call that cuts a track. -/
def trimArguments (source : Path) (seconds : Double) (output : Path) : List String :=
  ["-i", source.shown, "-t", seconds.plain, "-acodec", "copy", "-y", output.shown]

/-- Cuts a track to a length. -/
def trim (toolbox : Toolbox) (source : Path) (seconds : Double) (output : Path) :
    Action Path := do
  unless ← Action.ask (·.hasPath source) do
    throw (.fileNotFound (.audio source))
  Action.check (validateLength seconds)
  let _ ← Action.keeping (.file output)
    (Action.call toolbox .ffmpeg (trimArguments source seconds output))
  pure output

/-- The mixdown of tracks. -/
def mixdown (dropout : Nat) (tracks : List Track) : Mixdown :=
  tracks.foldl (fun m t => m.add t.offset t.volume) (.empty dropout)

/-- The arguments of the call that mixes tracks. -/
def mixArguments (dropout : Nat) (tracks : List Track) (seconds : Double) (output : Path) :
    List String :=
  tracks.flatMap (fun t => ["-i", t.source.shown]) ++
    ["-filter_complex", (mixdown dropout tracks).text, "-map", "[" ++ mixLabel ++ "]",
      "-t", seconds.plain, "-y", output.shown]

/-- What has to hold of tracks before any of them is looked for. -/
def validateMix (tracks : List Track) (seconds : Double) : Except Failure Unit := do
  if tracks.isEmpty then throw (.invalidInput .noTracks)
  validateLength seconds
  tracks.forM Track.validate

/-- Mixes the tracks that exist. -/
def mix (toolbox : Toolbox) (dropout : Nat) (tracks : List Track) (seconds : Double)
    (output : Path) : Action Path := do
  Action.check (validateMix tracks seconds)
  let present ← Action.ask fun d => tracks.filter fun t => d.hasPath t.source
  if present.isEmpty then throw (.fileNotFound (.everyTrack tracks.length))
  let _ ← Action.keeping (.file output)
    (Action.call toolbox .ffmpeg (mixArguments dropout present seconds output))
  pure output

end Slidecast.Audio
