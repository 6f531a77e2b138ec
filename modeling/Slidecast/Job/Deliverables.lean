import Slidecast.Failure
import Slidecast.Json.Paths

/-!
# Deliverables

What a job delivers is described by a manifest, which is kept as a JSON text beside the files.
It can be written if all paths of the deliverables are texts.
-/

set_option autoImplicit false

namespace Slidecast

open Json Number

/-- What a job has made. -/
structure Deliverables where
  id : String
  directory : Path
  /-- The frames in the order in which they are shown. -/
  frames : List Path
  playlist : Path
  subtitles : Path
  /-- The sound, if the project has any. -/
  sound : Option Path
  width : Nat
  height : Nat
  duration : Double
  wordCount : Nat
  /-- When the job was done. -/
  createdAt : String
  deriving DecidableEq

/-- The name of the file in which the manifest is kept. -/
def manifestName : String := "manifest.json"

namespace Deliverables

/-- The paths of what has been made. -/
def paths (d : Deliverables) : List Path :=
  d.directory :: d.frames ++ d.playlist :: d.subtitles :: d.sound.toList

/-- The manifest as a document. -/
def document (d : Deliverables) : Document :=
  .object
    [ ("job_id", .string d.id),
      ("job_dir", pathDocument d.directory),
      ("images", .list (d.frames.map pathDocument)),
      ("timeline", pathDocument d.playlist),
      ("subtitles", pathDocument d.subtitles),
      ("audio", (d.sound.map pathDocument).getD .null),
      ("width", .natural d.width),
      ("height", .natural d.height),
      ("duration", .double d.duration),
      ("word_count", .natural d.wordCount),
      ("created_at", .string d.createdAt) ]

/-- The text of the manifest. -/
def manifest (d : Deliverables) : Except Failure String :=
  match checkPaths d.paths with
  | .ok () => .ok d.document.pretty
  | .error fault => .error (.json fault)

/-- The fields of a manifest. -/
def shape : Shape Deliverables where
  blank :=
    { id := "", directory := ⟨""⟩, frames := [], playlist := ⟨""⟩, subtitles := ⟨""⟩,
      sound := none, width := 0, height := 0, duration := 0, wordCount := 0, createdAt := "" }
  fields :=
    [ (Field.of "job_id" string fun x d => { d with id := x }).demanded,
      (Field.of "job_dir" pathDecoder fun x d => { d with directory := x }).demanded,
      (Field.of "images" (list pathDecoder) fun x d => { d with frames := x }).demanded,
      (Field.of "timeline" pathDecoder fun x d => { d with playlist := x }).demanded,
      (Field.of "subtitles" pathDecoder fun x d => { d with subtitles := x }).demanded,
      Field.of "audio" (optional pathDecoder) fun x d => { d with sound := x },
      (Field.of "width" (word 32) fun x d => { d with width := x }).demanded,
      (Field.of "height" (word 32) fun x d => { d with height := x }).demanded,
      (Field.of "duration" double fun x d => { d with duration := x }).demanded,
      (Field.of "word_count" (word 64) fun x d => { d with wordCount := x }).demanded,
      (Field.of "created_at" string fun x d => { d with createdAt := x }).demanded ]

/-- The deliverables that a manifest describes. -/
def ofManifest? (text : String) : Option Deliverables := (decode shape.decoder text).toOption

end Deliverables

end Slidecast
