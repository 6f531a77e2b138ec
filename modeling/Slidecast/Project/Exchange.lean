import Slidecast.Project.Basic
import Slidecast.Speech.Exchange
import Slidecast.Action

/-!
# Projects in JSON texts

A project is a record, and so is each of its sounds.  Only the name and the duration of a project
and the source of a sound may not be missing.  A project that is loaded from a file is checked.
-/

set_option autoImplicit false

namespace Slidecast

open Files Json

namespace SoundSource

/-- The fields of a sound. -/
def shape : Shape SoundSource where
  blank := { source := "" }
  fields :=
    [ (Field.of "src" string fun x s => { s with source := x }).demanded,
      Field.of "volume" single fun x s => { s with volume := x },
      (Field.of "audioBegin" double fun x s => { s with start := x }).alsoNamed "videoBegin" ]

/-- The sound as a document. -/
def document (s : SoundSource) : Document :=
  .object [("src", .string s.source), ("volume", .single s.volume),
    ("audioBegin", .double s.start)]

end SoundSource

namespace Project

/-- The fields of a project. -/
def shape : Shape Project where
  blank := { name := "", duration := 0 }
  fields :=
    [ (Field.of "name" string fun x p => { p with name := x }).demanded,
      Field.of "resolution" string fun x p => { p with resolution := x },
      Field.of "width" (optional (word 32)) fun x p => { p with width := x },
      Field.of "height" (optional (word 32)) fun x p => { p with height := x },
      (Field.of "duration" double fun x p => { p with duration := x }).demanded,
      Field.of "backgroundColor" string fun x p => { p with background := x },
      Field.of "images" (list string) fun x p => { p with pictures := x },
      Field.of "audios" (list SoundSource.shape.decoder) fun x p => { p with sounds := x },
      Field.of "markerWords" (list string) fun x p => { p with markers := x },
      Field.of "script" (optional string) fun x p => { p with script := x } ]

/-- The project as a document. -/
def document (p : Project) : Document :=
  .object
    [ ("name", .string p.name),
      ("resolution", .string p.resolution),
      ("width", (p.width.map Document.natural).getD .null),
      ("height", (p.height.map Document.natural).getD .null),
      ("duration", .double p.duration),
      ("backgroundColor", .string p.background),
      ("images", .list (p.pictures.map Document.string)),
      ("audios", .list (p.sounds.map SoundSource.document)),
      ("markerWords", .list (p.markers.map Document.string)),
      ("script", (p.script.map Document.string).getD .null) ]

/-- The project in a JSON text. -/
def ofText (text : String) : Except Failure Project := (decode shape.decoder text).mapError .json

/-- The failure of reading a document. -/
def unread (path : Path) (fault : Files.Fault) : Failure := .fileNotFound (.document path fault)

/-- The project in a file, which has to be a valid one. -/
def load (path : Path) : Action Project := do
  let text ← Action.readDisk (·.readText path) (unread path)
  let project ← Action.check (ofText text)
  Action.check project.validate
  pure project

end Project

/-- The utterance in a file. -/
def Speech.Utterance.load (path : Path) : Action Speech.Utterance := do
  let text ← Action.readDisk (·.readText path) (Project.unread path)
  Action.check (ofText text)

end Slidecast
