import Slidecast.Action
import Slidecast.Number.Reading
import Slidecast.Text.Blank

/-!
# Asking the tools

Two questions are put to the media tools: which version they are, and how long a recording
lasts.
-/

set_option autoImplicit false

namespace Slidecast

open Files Number

/-- The first line of a text, without its end. -/
def firstLine (text : String) : String :=
  let line := text.toList.takeWhile (· ≠ '\n')
  let ended := line.length < text.toList.length
  String.ofList (if ended && line.getLast? == some '\r' then line.dropLast else line)

/-- The line in which the first tool says its version. -/
def versionLine (toolbox : Toolbox) : Action String := do
  let output ← Action.call toolbox .ffmpeg ["-version"]
  pure (firstLine output.stdout)

/-- Whether the first tool answers at all. -/
def toolAnswers (toolbox : Toolbox) : Action Bool := do
  match ← Action.attempt (versionLine toolbox) with
  | .ok _ => pure true
  | .error _ => pure false

/-- How many seconds the recording at a path lasts. -/
def recordingLength (toolbox : Toolbox) (path : Path) : Action Double := do
  unless ← Action.ask (·.hasPath path) do
    throw (.fileNotFound (.media path))
  let output ← Action.call toolbox .ffprobe
    ["-v", "error", "-show_entries", "format=duration", "-of",
      "default=noprint_wrappers=1:nokey=1", path.shown]
  let text := Text.trim output.stdout
  match (Binary.read? text : Option Double) with
  | some duration => pure duration
  | none => throw (.durationText path text)

end Slidecast
