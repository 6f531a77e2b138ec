import Slidecast.Picture.Frame
import Slidecast.Subtitle.Style

/-!
# Settings

The settings hold for all jobs: what frames and subtitles look like, how long a picture is shown
when the speech gives no time, how tracks are mixed, where jobs are kept, which programs the
media tools are and how long they may take, and whether a job that fails is cleared away.
-/

set_option autoImplicit false

namespace Slidecast

open Files Number

/-- What holds for all jobs. -/
structure Settings where
  frame : Picture.FrameStyle := {}
  subtitles : Subtitle.Style := {}
  /-- How many seconds a picture is shown when the speech gives no time. -/
  fallback : Double := 2
  /-- For how many seconds the other tracks are faded in when one ends. -/
  dropout : Nat := 3
  /-- The directory in which every job gets its own. -/
  root : Path := ⟨"output"⟩
  ffmpeg : Path := ⟨"ffmpeg"⟩
  ffprobe : Path := ⟨"ffprobe"⟩
  /-- How many seconds a call of a media tool may take. -/
  timeout : Nat := 1800
  cleansUp : Bool := true
  deriving DecidableEq, Inhabited

namespace Settings

/-- Settings are refused for the first of these reasons: frames without a size, a quality that is
not from 1 to 100, lines without words, a fallback that is not positive, no time for tools. -/
def validate (s : Settings) : Except Failure Unit := do
  if s.frame.width = 0 ∨ s.frame.height = 0 then
    throw (.settings (.frameSize s.frame.width s.frame.height))
  if ¬ (1 ≤ s.frame.quality ∧ s.frame.quality ≤ 100) then
    throw (.settings (.quality s.frame.quality))
  if s.subtitles.wordsPerLine = 0 then throw (.settings .noWordsPerLine)
  if ¬ 0 < s.fallback then throw (.settings (.fallback s.fallback))
  if s.timeout = 0 then throw (.settings .noTimeout)

/-- The settings with what the variables of an environment say in their place. -/
def override (s : Settings) (environment : List (String × String)) : Settings :=
  let path (key : String) (path : Path) : Path :=
    ((environment.lookup key).map Path.ofText).getD path
  { s with
    ffmpeg := path "REEL_SYNC_FFMPEG" s.ffmpeg
    ffprobe := path "REEL_SYNC_FFPROBE" s.ffprobe
    root := path "REEL_SYNC_OUTPUT_DIR" s.root }

end Settings

end Slidecast
