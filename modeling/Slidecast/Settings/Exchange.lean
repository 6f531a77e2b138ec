import Slidecast.Json.Paths
import Slidecast.Settings.Basic

/-!
# Settings in JSON texts

Settings are a record of records.  Every field may be missing and then has its usual value.
Settings that are loaded from a file are checked.
-/

set_option autoImplicit false

namespace Slidecast

open Files Json Number

namespace Files.Colour

/-- Three channels. -/
def decoder : Decoder Colour :=
  (listOf 3 (word 8)).map fun
    | [red, green, blue] => ⟨red, green, blue⟩
    | _ => ⟨0, 0, 0⟩

/-- The colour as a document. -/
def document (c : Colour) : Document :=
  .list [.natural c.red, .natural c.green, .natural c.blue]

end Files.Colour

namespace Picture.FrameStyle

/-- The fields of a frame style. -/
def shape : Shape FrameStyle where
  blank := {}
  fields :=
    [ Field.of "width" (word 32) fun x s => { s with width := x },
      Field.of "height" (word 32) fun x s => { s with height := x },
      Field.of "jpeg_quality" (word 8) fun x s => { s with quality := x },
      Field.of "background" Colour.decoder fun x s => { s with background := x } ]

/-- The frame style as a document. -/
def document (s : FrameStyle) : Document :=
  .object [("width", .natural s.width), ("height", .natural s.height),
    ("jpeg_quality", .natural s.quality), ("background", s.background.document)]

end Picture.FrameStyle

namespace Settings

/-- The only field of the settings of the playlist. -/
def playlistShape : Shape Double where
  blank := ({} : Settings).fallback
  fields := [ Field.of "fallback_duration" double fun x _ => x ]

/-- The only field of the settings of the mix. -/
def mixShape : Shape Nat where
  blank := ({} : Settings).dropout
  fields := [ Field.of "dropout_transition" (word 32) fun x _ => x ]

/-- The fields of settings. -/
def shape : Shape Settings where
  blank := {}
  fields :=
    [ Field.of "output" Picture.FrameStyle.shape.decoder fun x s => { s with frame := x },
      Field.of "subtitle_style" Subtitle.Style.shape.decoder fun x s => { s with subtitles := x },
      Field.of "timeline" playlistShape.decoder fun x s => { s with fallback := x },
      Field.of "audio" mixShape.decoder fun x s => { s with dropout := x },
      Field.of "output_root" pathDecoder fun x s => { s with root := x },
      Field.of "ffmpeg_path" pathDecoder fun x s => { s with ffmpeg := x },
      Field.of "ffprobe_path" pathDecoder fun x s => { s with ffprobe := x },
      Field.of "process_timeout_secs" (word 64) fun x s => { s with timeout := x },
      Field.of "cleanup_on_failure" boolean fun x s => { s with cleansUp := x } ]

/-- The settings as a document; their paths have to be texts. -/
def document (s : Settings) : Document :=
  .object
    [ ("output", s.frame.document),
      ("subtitle_style", s.subtitles.document),
      ("timeline", .object [("fallback_duration", .double s.fallback)]),
      ("audio", .object [("dropout_transition", .natural s.dropout)]),
      ("output_root", pathDocument s.root),
      ("ffmpeg_path", pathDocument s.ffmpeg),
      ("ffprobe_path", pathDocument s.ffprobe),
      ("process_timeout_secs", .natural s.timeout),
      ("cleanup_on_failure", .boolean s.cleansUp) ]

/-- The settings in a JSON text. -/
def ofText (text : String) : Except Failure Settings :=
  (decode shape.decoder text).mapError .json

/-- The settings in a file, which have to be valid. -/
def load (path : Path) : Action Settings := do
  let text ← Action.readDisk (·.readText path) fun fault => .settings (.unreadable path fault)
  let settings ← Action.check (ofText text)
  Action.check settings.validate
  pure settings

end Settings

end Slidecast
