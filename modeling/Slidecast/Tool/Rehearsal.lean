import Slidecast.Tool.Toolbox

/-!
# Rehearsals

A rehearsal stands in for the media tools.  It answers the questions for the version and for a
length with fixed texts, and every other call by its manner: it writes the file named by the last
argument, writes a part of it, or writes nothing, and then succeeds, fails or takes too long.
-/

set_option autoImplicit false

namespace Slidecast

open Files

/-- How a rehearsal answers calls that make a file. -/
inductive Manner where
  | succeed
  | succeedSilently
  | failAlways
  | failBefore
  | failAfter
  | timeout
  deriving DecidableEq

/-- A stand-in for the media tools. -/
structure Rehearsal where
  manner : Manner := .succeed
  version : String := "ffmpeg version 6.1.1\n"
  length : String := "10.000000\n"

namespace Rehearsal

/-- The failure of a rehearsed call. -/
def failure (tool : Tool) : Failure := .toolFailed tool.name "exit status: 1" "Invalid data"

/-- The disk after a text is written to the path in the last argument. -/
def written (text : String) (arguments : List String) (disk : Disk) : Except Fault Disk :=
  match arguments.getLast? with
  | none => .ok disk
  | some path => disk.write (.ofText path) (.text text)

/-- Writes a text to the file of a call and gives the result, unless the file cannot be
written. -/
def making (text : String) (arguments : List String) (disk : Disk)
    (result : Except Failure ToolOutput) : Except Failure ToolOutput × Disk :=
  match written text arguments disk with
  | .ok disk => (result, disk)
  | .error fault => (.error (.io fault), disk)

/-- The outcomes of rehearsed calls. -/
def toolbox (r : Rehearsal) : Toolbox := fun _ call disk =>
  if r.manner = .failAlways then (.error (failure call.tool), disk)
  else if call.tool = .ffprobe then (.ok { stdout := r.length }, disk)
  else if call.arguments.head? = some "-version" then (.ok { stdout := r.version }, disk)
  else
    match r.manner with
    | .failBefore => (.error (failure call.tool), disk)
    | .timeout =>
        making "part" call.arguments disk (.error (.toolTimeout call.tool.name 7))
    | .succeedSilently => (.ok {}, disk)
    | .failAfter => making "audio" call.arguments disk (.error (failure call.tool))
    | _ => making "audio" call.arguments disk (.ok {})

end Rehearsal

end Slidecast
