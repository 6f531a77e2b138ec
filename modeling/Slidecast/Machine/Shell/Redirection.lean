import Slidecast.Machine.Shell.Session

/-!
# Redirections

A redirection gives another stream to a number: a file that is opened, a stream that another number
stands for, or none.
-/

set_option autoImplicit false

namespace Slidecast.Machine.Shell

open Files

/-- The words of a shell for a file that cannot be opened. -/
def openingWords (reads : Bool) (fault : Fault) : String :=
  if fault = .noEntry ∨ fault = .notDirectory then
    (if reads then "No such file" else "Directory nonexistent")
  else faultWords fault

/-- The number of the stream that a path of a device stands for. -/
def streamPath? (path : Bytes) : Option Nat :=
  let name := path.name
  if name = "/dev/stdin" then some 0
  else if name = "/dev/stdout" then some 1
  else if name = "/dev/stderr" then some 2
  else
    let front := "/dev/fd/".toList
    if front.isPrefixOf path then Bytes.nat? (path.drop front.length) else none

/-- The stream of a node that has been opened. -/
def streamOf (place : Place) (node : Node) (appends : Bool) : Except Fault Stream :=
  match node with
  | .device device => do
      device.opens
      .ok (.device device)
  | .file _ => .ok (.file place 0 appends)
  | .directory | .link _ => .error .isDirectory

/-- Opens a file for reading. -/
def openToRead (s : Session) (path : Bytes) : Except Fault (Session × Nat) := do
  match ← s.disk.find (pathOf path) with
  | (_, .directory) => .ok (s.addStream (.source {}))
  | (place, node) => do .ok (s.addStream (← streamOf place node false))

/-- Opens a file for writing; a new one is made if there is none. -/
def openToWrite (s : Session) (path : Bytes) (empties appends : Bool) :
    Except Fault (Session × Nat) := do
  match s.disk.find (pathOf path) with
  | .ok (place, .file content) => do
      let stream ← streamOf place (.file content) appends
      let disk := if empties then s.disk.put place (.file (.bytes [])) else s.disk
      .ok ({ s with disk }.addStream stream)
  | .ok (place, node) => do .ok (s.addStream (← streamOf place node appends))
  | .error _ => do
      let disk ← s.disk.write (pathOf path) (.bytes [])
      let (place, _) ← disk.find (pathOf path)
      .ok ({ s with disk }.addStream (.file place 0 appends))

/-- Opens a file as a redirection asks. -/
def openFile (s : Session) (direction : Direction) (path : Bytes) :
    Except Bytes (Session × Option Nat) :=
  let reads := direction = .read
  let refused (fault : Fault) : Except Bytes (Session × Option Nat) :=
    .error ((if reads then "cannot open " else "cannot create ").toList ++ path ++
      (": " ++ openingWords reads fault).toList)
  match (streamPath? path).map s.streamNumber? with
  | some (some stream) => .ok (s, some stream)
  | some none => refused .noEntry
  | none =>
      let opened :=
        match direction with
        | .read => openToRead s path
        | .append => openToWrite s path false true
        | .readWrite => openToWrite s path false false
        | direction =>
            if direction = Direction.write && s.hasOption 'C' && s.disk.hasFile (pathOf path) then .error .exists
            else openToWrite s path true false
      match opened with
      | .ok (s, stream) => .ok (s, some stream)
      | .error fault => refused fault

/-- Why a redirection is refused: the words, and whether the shell ends. -/
structure Refusal where
  words : Bytes
  isFatal : Bool := false

/-- The stream that a copy of a stream asks for. -/
def copiedStream (s : Session) (target : Bytes) : Except Refusal (Option Nat) :=
  match target, Bytes.nat? target with
  | ['-'], _ => .ok none
  | _, some n =>
      match s.streamNumber? n with
      | some stream => .ok (some stream)
      | none => .error { words := Bytes.ofNat n ++ ": Bad file descriptor".toList }
  | _, none => .error { words := "Syntax error: Bad fd number".toList, isFatal := true }

/-- Carries out a redirection whose target has been expanded. -/
def redirect (s : Session) (descriptor : Nat) (direction : Direction) (target : Bytes) :
    Except Refusal Session :=
  match direction with
  | .copy => do .ok (s.setDescriptor descriptor (← copiedStream s target))
  | .document =>
      let (s, stream) := s.addStream (.source { bytes := target })
      .ok (s.setDescriptor descriptor (some stream))
  | direction =>
      match openFile s direction target with
      | .ok (s, stream) => .ok (s.setDescriptor descriptor stream)
      | .error words => .error { words }

end Slidecast.Machine.Shell
