import Slidecast.Failure
import Slidecast.Files.Disk

/-!
# Media tools

Sound is cut, mixed and measured by two external tools.  A call names the tool and its
arguments; it gives what the tool wrote, or fails, and may change the disk in either case.

A toolbox says how calls come out.  The outcome may depend on the calls before.
-/

set_option autoImplicit false

namespace Slidecast

open Files

/-- A media tool. -/
inductive Tool where
  | ffmpeg
  | ffprobe
  deriving DecidableEq

/-- The name of a tool. -/
def Tool.name : Tool → String
  | .ffmpeg => "ffmpeg"
  | .ffprobe => "ffprobe"

/-- A call of a tool. -/
structure ToolCall where
  tool : Tool
  arguments : List String
  deriving DecidableEq

/-- What a tool wrote. -/
structure ToolOutput where
  stdout : String := ""
  stderr : String := ""
  deriving DecidableEq

/-- How a call comes out after the calls before it, on a given disk. -/
abbrev Toolbox : Type := List ToolCall → ToolCall → Disk → Except Failure ToolOutput × Disk

end Slidecast
