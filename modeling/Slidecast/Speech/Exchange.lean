import Slidecast.Speech.Utterance
import Slidecast.Json.Record
import Slidecast.Json.Document

/-!
# Speech in JSON texts

An utterance is a record of its three columns, and a transcript is a record with the list of its
words.  A transcript that is read passes through `Transcript.ofWords`, and what that refuses is
refused with the same words.
-/

set_option autoImplicit false

namespace Slidecast.Speech

open Number Json

namespace Word

/-- The fields of a word. -/
def shape : Shape Word where
  blank := ⟨"", 0, 0⟩
  fields :=
    [ (Field.of "word" string fun text w => { w with text := text }).demanded,
      (Field.of "start" double fun start w => { w with start := start }).demanded,
      (Field.of "end" double fun stop w => { w with stop := stop }).demanded ]

/-- The word as a document. -/
def document (w : Word) : Document :=
  .object [("word", .string w.text), ("start", .double w.start), ("end", .double w.stop)]

end Word

namespace Transcript

/-- The fields of a transcript. -/
def shape : Shape (List Word) where
  blank := []
  fields := [ (Field.of "words" (list Word.shape.decoder) fun words _ => words).demanded ]

/-- The transcript with words that were read. -/
def accept (words : List Word) : Except Json.Fault Transcript :=
  match ofWords words with
  | .ok t => .ok t
  | .error failure => .error (.refused failure.message)

/-- Reads a transcript. -/
def decoder : Decoder Transcript := shape.decoder.refine accept

/-- The transcript as a document. -/
def document (t : Transcript) : Document :=
  .object [("words", .list (t.words.map Word.document))]

/-- The transcript in a JSON text. -/
def ofText (text : String) : Except Failure Transcript :=
  (decode decoder text).mapError .json

end Transcript

namespace Utterance

/-- The fields of an utterance. -/
def shape : Shape Utterance where
  blank := ⟨[], [], []⟩
  fields :=
    [ (Field.of "characters" (list string) fun cs u => { u with characters := cs }).demanded,
      (Field.of "character_start_times_seconds" (list double)
        fun starts u => { u with starts := starts }).demanded,
      (Field.of "character_end_times_seconds" (list double)
        fun ends u => { u with ends := ends }).demanded ]

/-- The utterance in a JSON text. -/
def ofText (text : String) : Except Failure Utterance :=
  (decode shape.decoder text).mapError .json

end Utterance

end Slidecast.Speech
