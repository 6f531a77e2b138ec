import Slidecast.Number.Notation
import Slidecast.Files.Path
import Slidecast.Files.Fault
import Slidecast.Json.Fault

/-!
# Failures

Everything that can go wrong has a cause.  Causes are grouped by what has failed: a file is
missing, an input is refused, a media tool fails, a picture cannot be used, the file system or a
JSON text is at fault, the settings make no sense.  The groups have a kind: the input is to
blame, the processing is, or neither.

`Failure.message` is the only place where failures are put into words.
-/

set_option autoImplicit false

namespace Slidecast

open Number Files

/-- A file that was needed and is not there. -/
inductive Missing where
  | audio (path : Path)
  | everyTrack (count : Nat)
  | picture (path : Path)
  | document (path : Path) (fault : Files.Fault)
  | media (path : Path)
  | note (text : String)
  deriving DecidableEq

/-- An input that is refused. -/
inductive Refusal where
  | timeNotFinite (index : Nat) (word : String)
  | endsBeforeStart (index : Nat) (word : String) (start stop : Double)
  | notOrdered (index : Nat)
  | unevenColumns (characters starts ends : Nat)
  | noSlides
  | noPictures
  | noTracks
  | trackDuration (duration : Double)
  | trackVolume (source : Path) (volume : Single)
  | trackOffset (source : Path) (offset : Double)
  | projectUnnamed
  | projectDuration (duration : Double)
  | projectWithoutPictures
  | unknownResolution (name : String)
  | frameSize (width height : Nat)
  | background (text : String)
  | audioFormat (source : Path)
  | note (text : String)
  deriving DecidableEq

/-- A picture that cannot be used. -/
inductive PictureFault where
  | unreadable (path : Path)
  | empty (path : Path)
  | note (text : String)
  deriving DecidableEq

/-- Settings that make no sense, or that cannot be read. -/
inductive SettingsFault where
  | frameSize (width height : Nat)
  | quality (quality : Nat)
  | noWordsPerLine
  | fallback (duration : Double)
  | noTimeout
  | unreadable (path : Path) (fault : Files.Fault)
  | note (text : String)
  deriving DecidableEq

/-- A failure and its cause. -/
inductive Failure where
  | fileNotFound (cause : Missing)
  | invalidInput (cause : Refusal)
  | toolFailed (tool status stderr : String)
  | toolTimeout (tool : String) (seconds : Nat)
  | pictureProcessing (cause : PictureFault)
  | pictureSize
  | io (cause : Files.Fault)
  | json (cause : Json.Fault)
  | settings (cause : SettingsFault)
  | durationText (path : Path) (text : String)
  | note (text : String)
  deriving DecidableEq

/-- Who is to blame for a failure. -/
inductive FailureKind where
  | input
  | processing
  | other
  deriving DecidableEq

/-! ## Wording -/

/-- The words for a missing file. -/
def Missing.message : Missing → String
  | .audio path => s!"Audio file not found: {path}"
  | .everyTrack count => s!"None of the {count} audio tracks exist"
  | .picture path => s!"Image not found: {path}"
  | .document path fault => s!"{path}: {fault.message}"
  | .media path => path.shown
  | .note text => text

/-- The words for a refused input. -/
def Refusal.message : Refusal → String
  | .timeNotFinite index word => s!"Word {index} ('{word}') has a non-finite timestamp"
  | .endsBeforeStart index word start stop =>
      s!"Word {index} ('{word}') starts at {start} after it ends at {stop}"
  | .notOrdered index => s!"Word alignment is not time-ordered at index {index}"
  | .unevenColumns characters starts ends =>
      s!"Character alignment arrays differ in length: {characters} characters, " ++
        s!"{starts} start times, {ends} end times"
  | .noSlides => "Cannot build a timeline without images"
  | .noPictures => "No images provided for normalization"
  | .noTracks => "No audio tracks provided for mixing"
  | .trackDuration duration => s!"Target duration must be positive, got {duration}"
  | .trackVolume source volume => s!"Track {source} has invalid volume {volume}"
  | .trackOffset source offset => s!"Track {source} has invalid offset {offset}"
  | .projectUnnamed => "Project name must not be empty"
  | .projectDuration duration => s!"Project duration must be positive, got {duration}"
  | .projectWithoutPictures => "Project has no images"
  | .unknownResolution name => s!"Unknown resolution preset '{name}'"
  | .frameSize width height => s!"Invalid frame size {width}x{height}"
  | .background text => s!"Invalid background color '{text}'"
  | .audioFormat source => s!"Unsupported audio format: {source}"
  | .note text => text

/-- The words for a picture that cannot be used. -/
def PictureFault.message : PictureFault → String
  | .unreadable path => s!"Failed to decode {path}"
  | .empty path => s!"Image {path} has zero size"
  | .note text => text

/-- The words for settings that make no sense. -/
def SettingsFault.message : SettingsFault → String
  | .frameSize width height => s!"Output resolution must be non-zero, got {width}x{height}"
  | .quality value => s!"JPEG quality must be within 1..=100, got {value}"
  | .noWordsPerLine => "words_per_line must be at least 1"
  | .fallback duration => s!"fallback_duration must be positive, got {duration}"
  | .noTimeout => "process_timeout_secs must be positive"
  | .unreadable path fault => s!"Failed to read config {path}: {fault.message}"
  | .note text => text

/-- The words for a fault of a JSON text. -/
def Json.Fault.message : Json.Fault → String
  | .endOfText => "unexpected end of text"
  | .malformed => "malformed text"
  | .mismatch => "unexpected shape"
  | .refused reason => reason

namespace Failure

/-- The words for a failure. -/
def message : Failure → String
  | .fileNotFound cause => s!"File not found: {cause.message}"
  | .invalidInput cause => s!"Invalid input: {cause.message}"
  | .toolFailed tool status stderr => s!"{tool} failed with status {status}: {stderr}"
  | .toolTimeout tool seconds => s!"{tool} timed out after {seconds} seconds"
  | .pictureProcessing cause => s!"Image processing error: {cause.message}"
  | .pictureSize =>
      "Image codec error: The Image's dimensions are either too small or too large"
  | .io cause => s!"IO error: {cause.message}"
  | .json cause => s!"JSON error: {cause.message}"
  | .settings cause => s!"Configuration error: {cause.message}"
  | .durationText path text =>
      s!"Other error: Failed to parse media duration for {path}: '{text}'"
  | .note text => s!"Other error: {text}"

/-- Who is to blame. -/
def kind : Failure → FailureKind
  | .fileNotFound _ | .invalidInput _ => .input
  | .toolFailed _ _ _ | .toolTimeout _ _ | .pictureProcessing _ | .pictureSize => .processing
  | .io _ | .json _ | .settings _ | .durationText _ _ | .note _ => .other

/-- The input is to blame. -/
def isInput (failure : Failure) : Bool := failure.kind == .input

end Failure

end Slidecast
