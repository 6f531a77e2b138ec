import Slidecast.Json.Record
import Slidecast.Json.Document
import Slidecast.Files.Path

/-!
# Paths in JSON texts

A JSON text holds texts, so it can tell only those paths whose bytes are texts.
-/

set_option autoImplicit false

namespace Slidecast.Json

/-- A path in a JSON text. -/
def pathDecoder : Decoder Path := string.map Path.ofText

/-- A path that is a text, as a document. -/
def pathDocument (p : Path) : Document := .string p.shown

/-- Fails unless all paths can be told. -/
def checkPaths (paths : List Path) : Except Fault Unit :=
  if ∀ p ∈ paths, p.IsText then .ok ()
  else .error (.refused "path contains invalid UTF-8 characters")

end Slidecast.Json
