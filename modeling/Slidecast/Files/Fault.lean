/-!
# Faults of the file system

Why an operation on files was refused, and how the system words it.
-/

set_option autoImplicit false

namespace Slidecast.Files

/-- Why an operation on files was refused. -/
inductive Fault where
  | noEntry
  | noDevice
  | denied
  | exists
  | notDirectory
  | isDirectory
  | nameTooLong
  | noSpace
  | noMemory
  | notExecutable
  | notText
  | nulInPath
  | nulInArgument
  | noWholeTree
  | note (text : String)
  deriving DecidableEq

/-- The words of the system. -/
def Fault.message : Fault → String
  | .noEntry => "No such file or directory (os error 2)"
  | .noDevice => "No such device or address (os error 6)"
  | .notExecutable => "Exec format error (os error 8)"
  | .noMemory => "Cannot allocate memory (os error 12)"
  | .denied => "Permission denied (os error 13)"
  | .exists => "File exists (os error 17)"
  | .notDirectory => "Not a directory (os error 20)"
  | .isDirectory => "Is a directory (os error 21)"
  | .noSpace => "No space left on device (os error 28)"
  | .nameTooLong => "File name too long (os error 36)"
  | .notText => "stream did not contain valid UTF-8"
  | .nulInPath => "file name contained an unexpected NUL byte"
  | .nulInArgument => "nul byte found in provided data"
  | .noWholeTree => "failed to create whole tree"
  | .note text => text

end Slidecast.Files
