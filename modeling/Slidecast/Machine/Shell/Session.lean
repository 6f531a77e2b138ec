import Slidecast.Machine.Program
import Slidecast.Machine.Shell.Reader

/-!
# Sessions of a shell

A session is what a shell knows while it carries out a script: its variables, commands and
options, what its streams are, and how far the script has come.  It also holds the scene that it
shares with the shells and programs that it starts: the streams, the disk, the clock and the jobs
in the background.
-/

set_option autoImplicit false

namespace Slidecast.Machine.Shell

open Files

/-- A stream as it is shared by those that hold it. -/
inductive Stream where
  /-- Something to be read. -/
  | source (supply : Supply)
  /-- Something to be written; the last piece comes first.  Each piece has the time and the job of
  its writing.  Behind them all, a row of bytes may be written again and again. -/
  | sink (pieces : List (Nat × Nat × Bytes)) (cycle : Bytes)
  /-- A file, and how far it has been read or written. -/
  | file (place : Place) (position : Nat) (appends : Bool)
  | device (device : Device)

/-- A variable.  Without a value it is only marked. -/
structure Variable where
  name : Bytes
  value : Option Bytes
  isExported : Bool := false
  isReadOnly : Bool := false

/-- How a script goes on. -/
inductive Flow where
  | on
  | exit
  | return
  | break (levels : Nat)
  | continue (levels : Nat)
  /-- It never ends by itself. -/
  | endless
  | killed (signal : Nat)
  deriving DecidableEq

/-- A job in the background. -/
structure BackgroundJob where
  number : Nat
  /-- When it ends, if it ever does. -/
  endTime : Option Nat
  ending : Ending
  /-- Whether it holds one of the outputs of the shell. -/
  holdsOutput : Bool
  /-- Whether its end is known to the shell. -/
  isGone : Bool := false

/-- What a shell knows while it carries out a script. -/
structure Session where
  name : Bytes
  arguments : List Bytes := []
  memory : List Variable := []
  functions : List (Bytes × Command) := []
  aliases : List (Bytes × Bytes) := []
  documents : Array Word := #[]
  options : List Char := []
  status : Nat := 0
  /-- The status of the last script whose output was put into a word. -/
  outputStatus : Option Nat := none
  /-- The streams of the shell, by the numbers that redirections use. -/
  descriptors : List (Nat × Nat) := [(0, 0), (1, 1), (2, 2)]
  traps : List (Nat × Bytes) := []
  /-- Signals that wait for their traps. -/
  pending : List Nat := []
  /-- The variables to be put back behind the functions that are being carried out. -/
  saved : List (List Variable) := []
  flow : Flow := .on
  line : Nat := 1
  loops : Nat := 0
  /-- How many scripts in files are being carried out. -/
  sourced : Nat := 0
  /-- Whether this is a shell of its own that was started by another one. -/
  isInner : Bool := false
  /-- Whether the programs that it calls take its place. -/
  givesWay : Bool := false
  /-- The signal that has ended the last program. -/
  death : Option Nat := none
  /-- The signals for which an outer shell is prepared. -/
  caught : List Nat := []
  /-- The name of the command of the shell that is being carried out. -/
  within : Bytes := []
  /-- The number of the job to which the shell belongs. -/
  job : Nat := 0
  lastJob : Option Nat := none
  /-- How far the letters of an argument have been taken. -/
  optionLetter : Nat := 0
  /-- Which rights new files do not have. -/
  mask : Nat := 18
  streams : Array Stream
  disk : Disk
  clock : Nat := 0
  /-- The time after which nothing matters any more. -/
  deadline : Nat := 1000000000
  jobs : List BackgroundJob := []
  nextJob : Nat := 1

/-- The number of the process that is the shell. -/
def ownNumber : Nat := 4242

namespace Session

/-- Whether the script goes on. -/
def isOn (s : Session) : Bool := s.flow = .on

/-- Whether an option is set. -/
def hasOption (s : Session) (letter : Char) : Bool := s.options.contains letter

/-! ## Variables -/

/-- The variable with a name. -/
def variableNamed? (s : Session) (name : Bytes) : Option Variable :=
  s.memory.find? fun v => v.name = name

/-- The value of a variable. -/
def value? (s : Session) (name : Bytes) : Option Bytes := (s.variableNamed? name).bind Variable.value

/-- The session with a variable in place of one of the same name. -/
def putVariable (s : Session) (v : Variable) : Session :=
  if (s.variableNamed? v.name).isSome then
    { s with memory := s.memory.map fun other => if other.name = v.name then v else other }
  else { s with memory := v :: s.memory }

/-- The session without a variable. -/
def dropVariable (s : Session) (name : Bytes) : Session :=
  { s with memory := s.memory.filter fun v => v.name ≠ name }

/-- Gives a value to a variable, whether or not it may be changed. -/
def bind (s : Session) (name value : Bytes) : Session :=
  let old := (s.variableNamed? name).getD { name, value := none }
  let s := if name.name = "OPTIND" then { s with optionLetter := 0 } else s
  s.putVariable
    { old with value := some value, isExported := old.isExported || s.hasOption 'a' }

/-- The variables that programs are given. -/
def environment (s : Session) : List (Bytes × Bytes) :=
  s.memory.reverse.filterMap fun v =>
    if v.isExported then v.value.map fun value => (v.name, value) else none

/-- The separators of words. -/
def separators (s : Session) : Bytes := (s.value? "IFS".toList).getD [' ', '\t', '\n']

/-! ## Streams -/

/-- The stream that a number stands for. -/
def streamNumber? (s : Session) (descriptor : Nat) : Option Nat := s.descriptors.lookup descriptor

/-- The session with a number standing for a stream, or for none. -/
def setDescriptor (s : Session) (descriptor : Nat) (stream : Option Nat) : Session :=
  let others := s.descriptors.filter fun entry => entry.1 ≠ descriptor
  { s with descriptors := (stream.map fun n => (descriptor, n)).toList ++ others }

/-- The session with one more stream, and the number of that stream. -/
def addStream (s : Session) (stream : Stream) : Session × Nat :=
  ({ s with streams := s.streams.push stream }, s.streams.size)

/-- Adds bytes to what a file holds, from a position on. -/
def overwritten (old : Bytes) (position : Nat) (bytes : Bytes) : Bytes :=
  if position = old.length then old ++ bytes
  else
    old.take position ++ List.replicate (position - old.length) (Char.ofNat 0) ++ bytes ++
      old.drop (position + bytes.length)

/-- The bytes of the file at a place. -/
def fileBytes (s : Session) (place : Place) : Bytes :=
  match s.disk.lookup place with
  | some (.file content) => contentBytes content
  | _ => []

/-- Writes to a stream; gives whether that was possible. -/
def writeStream (s : Session) (number : Nat) (bytes : Bytes) : Session × Bool :=
  match s.streams[number]? with
  | some (.sink pieces cycle) =>
      let sink := Stream.sink ((s.clock, s.job, bytes) :: pieces) cycle
      ({ s with streams := s.streams.setIfInBounds number sink }, true)
  | some (.file place position appends) =>
      let old := s.fileBytes place
      let position := if appends then old.length else position
      let content := Content.bytes (overwritten old position bytes).octets
      let streams :=
        s.streams.setIfInBounds number (.file place (position + bytes.length) appends)
      ({ s with streams, disk := s.disk.put place (.file content) }, true)
  | some (.device device) => (s, device.accepts.isOk || bytes.isEmpty)
  | _ => (s, false)

/-- Writes to the stream that a number stands for; gives whether that was possible. -/
def write (s : Session) (descriptor : Nat) (bytes : Bytes) : Session × Bool :=
  if bytes.isEmpty then (s, true)
  else
    match s.streamNumber? descriptor with
    | some number => s.writeStream number bytes
    | none => (s, false)

/-- Writes to the output. -/
def print (s : Session) (bytes : Bytes) : Session := (s.write 1 bytes).1

/-- Writes to the output again and again. -/
def printForever (s : Session) (cycle : Bytes) : Session :=
  match s.streamNumber? 1 with
  | none => s
  | some number =>
      match s.streams[number]? with
      | some (.sink pieces _) =>
          { s with
            streams := s.streams.setIfInBounds number (.sink pieces cycle), flow := .endless }
      | _ => { s with flow := .endless }

/-- What can be read from the stream that a number stands for. -/
def supply (s : Session) (descriptor : Nat) : Supply :=
  match (s.streamNumber? descriptor).bind fun number => s.streams[number]? with
  | some (.source supply) => supply
  | some (.file place position _) => { bytes := (s.fileBytes place).drop position }
  | some (.device device) => deviceSupply device
  | _ => {}

/-- Leaves the given part of what can be read from a stream. -/
def leave (s : Session) (descriptor : Nat) (left : Supply) : Session :=
  match s.streamNumber? descriptor with
  | none => s
  | some number =>
      match s.streams[number]? with
      | some (.source _) =>
          { s with streams := s.streams.setIfInBounds number (.source left) }
      | some (.file place _ appends) =>
          let position := (s.fileBytes place).length - left.bytes.length
          { s with streams := s.streams.setIfInBounds number (.file place position appends) }
      | _ => s

/-- What has been written to a stream, in the order of time. -/
def writtenTo (s : Session) (number : Nat) : Supply :=
  match s.streams[number]? with
  | some (.sink pieces cycle) =>
      let ordered := pieces.reverse.mergeSort fun a b => a.1 ≤ b.1
      { bytes := (ordered.map fun piece => piece.2.2).flatten, cycle }
  | _ => {}

/-- Whether the shell still holds one of the outputs that it was started with. -/
def holdsOutput (s : Session) : Bool :=
  s.descriptors.any fun entry => entry.2 = 1 || entry.2 = 2

/-! ## Complaints -/

/-- The session with another status. -/
def withStatus (s : Session) (status : Nat) : Session := { s with status }

/-- What stands in front of a complaint. -/
def complaintLead (s : Session) : Bytes :=
  s.name ++ ": ".toList ++ .ofNat s.line ++ ": ".toList ++
    (if s.within.isEmpty then [] else s.within ++ ": ".toList)

/-- Writes a complaint. -/
def complain (s : Session) (message : Bytes) : Session :=
  (s.write 2 (s.complaintLead ++ message ++ ['\n'])).1

/-- Writes a complaint and goes on with a status. -/
def report (s : Session) (message : Bytes) (status : Nat) : Session :=
  (s.complain message).withStatus status

/-- Writes a complaint and ends the script. -/
def fail (s : Session) (message : Bytes) (status : Nat) : Session :=
  { s.report message status with flow := .exit }

/-- Gives a value to a variable, unless it may not be changed. -/
def assign (s : Session) (name value : Bytes) : Session :=
  if (s.variableNamed? name).any Variable.isReadOnly then
    s.fail (name ++ ": is read only".toList) 2
  else s.bind name value

/-! ## Inner shells -/

/-- The session of a shell that is started by this one. -/
def inner (s : Session) : Session :=
  let prepared := (s.traps.filter fun trap => !trap.2.isEmpty).map Prod.fst
  { s with
    isInner := true, givesWay := false, loops := 0, pending := [], caught := prepared ++ s.caught
    traps := s.traps.filter fun trap => trap.2.isEmpty
    jobs := s.jobs.map fun job => { job with isGone := true } }

/-- The session after an inner shell has done its work: of it, the scene remains and the
status. -/
def afterInner (s : Session) (inside : Session) : Session :=
  { s with
    streams := inside.streams.shrink s.streams.size
    disk := { inside.disk with working := s.disk.working }
    clock := inside.clock
    jobs := s.jobs ++ (inside.jobs.drop s.jobs.length).map fun job => { job with isGone := true }
    nextJob := inside.nextJob
    documents := inside.documents
    status := inside.status
    pending := s.pending ++ inside.pending
    flow :=
      match inside.flow with
      | .endless => .endless
      | .killed signal => .killed signal
      | _ => s.flow }

/-- Tells that something was ended by a signal, unless this is how programs are usually stopped. -/
def reportEnding (s : Session) (ending : Ending) : Session :=
  match ending with
  | .exited _ => s
  | .killed signal =>
      match Ending.obituary? signal with
      | some words => (s.write 2 (words.toList ++ ['\n'])).1
      | none => s

/-- Why what a program writes cannot be written. -/
def writingFault (s : Session) (descriptor : Nat) : String :=
  match (s.streamNumber? descriptor).bind fun number => s.streams[number]? with
  | some (.device _) => "No space left on device"
  | _ => "Bad file descriptor"

/-- Adds what the program with a name has done to the session. -/
def take (s : Session) (name : Bytes) (outcome : Outcome) : Session :=
  let s :=
    match outcome.left with
    | some left => s.leave 0 left
    | none => s
  let (s, failed) := outcome.written.foldl
    (fun (state : Session × Bool) piece =>
      let (s, written) := state.1.write (if piece.1 = .out then 1 else 2) piece.2
      (s, state.2 || (!written && piece.1 = .out)))
    (s, false)
  let s := { s with clock := s.clock + outcome.elapsed, status := outcome.ending.status }
  if failed then
    let words := name ++ (": write error: " ++ s.writingFault 1 ++ "\n").toList
    ((s.write 2 words).1).withStatus 1
  else
    let s := if outcome.cycle.isEmpty then s else s.printForever outcome.cycle
    if outcome.endless then { s with flow := .endless } else s

/-! ## Parameters -/

/-- The values of a parameter, if it has any: several for all arguments, one for others. -/
def values? (s : Session) (name : Bytes) : Option (List Bytes) :=
  match name with
  | ['@'] | ['*'] => some s.arguments
  | ['#'] => some [.ofNat s.arguments.length]
  | ['?'] => some [.ofNat s.status]
  | ['$'] => some [.ofNat ownNumber]
  | ['!'] => s.lastJob.map fun n => [.ofNat (ownNumber + n)]
  | ['-'] => some [s.options]
  | name =>
      match Bytes.nat? name with
      | some 0 => some [s.name]
      | some n => (s.arguments[n - 1]?).map fun value => [value]
      | none => (s.value? name).map fun value => [value]

end Session

end Slidecast.Machine.Shell
