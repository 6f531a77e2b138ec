import Slidecast.Machine.Shell.Session

/-!
# Finding programs

A program is called by its path or by its name.  A name is looked up in the directories that the
variable `PATH` lists.
-/

set_option autoImplicit false

namespace Slidecast.Machine.Shell

open Files

/-- Why there is no program to be called. -/
inductive NoProgram where
  | notFound
  | denied
  | tooLong
  deriving DecidableEq

/-- How a shell says that there is no program. -/
def NoProgram.words : NoProgram → String
  | .notFound => "not found"
  | .denied => "Permission denied"
  | .tooLong => "File name too long"

/-- The status of a shell that has found no program under what it was called by. -/
def NoProgram.status (fault : NoProgram) (called : Bytes) : Nat :=
  if fault = .denied ∧ called.contains '/' then 126 else 127

/-- The program at a path. -/
def programAt (disk : Disk) (path : Bytes) : Except NoProgram String :=
  match disk.find (pathOf path) with
  | .ok (_, .file (.program name)) => .ok name
  | .ok _ => .error .denied
  | .error .nameTooLong => .error .tooLong
  | .error _ => .error .notFound

/-- The paths under which a name may be found. -/
def candidatePaths (s : Session) (name : Bytes) : List Bytes :=
  let directories := ((s.value? "PATH".toList).getD []).splitAt ':'
  directories.map fun directory =>
    if directory.isEmpty then name else directory ++ '/' :: name

/-- The path of the program with a name. -/
def pathOfProgram? (s : Session) (name : Bytes) : Option Bytes :=
  if name.contains '/' then
    if s.disk.hasPath (pathOf name) then some name else none
  else (candidatePaths s name).find? fun path => (programAt s.disk path).isOk

/-- The program that is called by a name or a path. -/
def findProgram (s : Session) (name : Bytes) : Except NoProgram String :=
  if name.contains '/' then programAt s.disk name
  else if name.isEmpty then .error .denied
  else
    match pathOfProgram? s name with
    | some path => programAt s.disk path
    | none =>
        let isDenied (path : Bytes) : Bool :=
          match programAt s.disk path with
          | .error .denied => true
          | _ => false
        if (candidatePaths s name).any isDenied then .error .denied else .error .notFound

end Slidecast.Machine.Shell
