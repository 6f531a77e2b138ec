/-!
# Faults of JSON texts

Reading stops at the first problem.  Its kind says whether the text ended too early, was not
JSON, did not have the shape that was asked for, or was refused by the value that it describes.
-/

set_option autoImplicit false

namespace Slidecast.Json

/-- The first problem of a text. -/
inductive Fault where
  | endOfText
  | malformed
  | mismatch
  | refused (reason : String)
  deriving DecidableEq

end Slidecast.Json
