import Slidecast.Tool.Toolbox
import Slidecast.Settings.Basic
import Slidecast.Machine.Equipment
import Slidecast.Text.Blank

/-!
# The media tools of the machine

A call of a media tool starts a program.  The call fails if the program cannot be started, takes
too long, or does not end with the status zero.  Time is measured in milliseconds and reported in
whole seconds.
-/

set_option autoImplicit false

namespace Slidecast

open Files Machine

/-- Which programs are the media tools, and how many milliseconds a call may take. -/
structure SystemTools where
  ffmpeg : Path
  ffprobe : Path
  timeout : Nat

namespace SystemTools

/-- The media tools that the settings name. -/
def ofSettings (settings : Settings) : SystemTools where
  ffmpeg := settings.ffmpeg
  ffprobe := settings.ffprobe
  timeout := 1000 * settings.timeout

/-- The program that a tool is. -/
def program (tools : SystemTools) : Tool → Path
  | .ffmpeg => tools.ffmpeg
  | .ffprobe => tools.ffprobe

/-- Whether a program that takes so long takes too long. -/
def isLate (tools : SystemTools) (elapsed : Option Nat) : Bool :=
  match elapsed with
  | some time => tools.timeout ≤ time
  | none => true

/-- The result of a call whose program did the given. -/
def resultOf (tools : SystemTools) (tool : Tool) (run : Shell.Run) : Except Failure ToolOutput :=
  let stderr := Text.trim run.stderr.text
  if tools.isLate run.elapsed then .error (.toolTimeout tool.name (tools.timeout / 1000))
  else if run.ending = .exited 0 then .ok { stdout := run.stdout.text, stderr := stderr }
  else .error (.toolFailed tool.name run.ending.describe stderr)

/-- The failure of a call whose program cannot be started. -/
def notStarted (tool : Tool) (path : Path) (fault : Fault) : Failure :=
  .toolFailed tool.name "not started" s!"Failed to start {path}: {fault.message}"

/-- The program that is started by a call. -/
def started? (tools : SystemTools) (call : ToolCall) (disk : Disk) : Except Fault String :=
  if call.arguments.any fun argument => argument.toList.contains '\x00' then
    .error .nulInArgument
  else programCalled disk (tools.program call.tool).text

/-- How calls of the media tools come out. -/
def toolbox (tools : SystemTools) : Toolbox := fun _ call disk =>
  let path := tools.program call.tool
  match tools.started? call disk with
  | .error fault => (.error (notStarted call.tool path fault), disk)
  | .ok program =>
      let (run, disk) :=
        Shell.run program path.text.toList (call.arguments.map Bytes.ofText) tools.timeout disk
      (tools.resultOf call.tool run, disk)

end SystemTools

end Slidecast
