import Slidecast.Files.Disk

/-!
# Provisional files

The files that an operation is about to write are provisional until it succeeds.  If it does
not, they are removed in the order in which they were named; the removal stops at the first one
that cannot be removed, and the rest is no longer provisional.
-/

set_option autoImplicit false

namespace Slidecast.Files

/-- Removes the file at a path if there is anything at the path. -/
def Disk.removeIfPresent (d : Disk) (p : Path) : Except Fault Disk :=
  if d.hasPath p then d.removeFile p else .ok d

/-- Removes files in order up to the first that cannot be removed. -/
def Disk.removeAll (d : Disk) : List Path → Except Fault Unit × Disk
  | [] => (.ok (), d)
  | p :: paths =>
      match d.removeIfPresent p with
      | .ok d' => d'.removeAll paths
      | .error fault => (.error fault, d)

/-- The paths of files that stay only if an operation succeeds. -/
structure Provisional where
  paths : List Path
  deriving DecidableEq

namespace Provisional

/-- No files. -/
def none : Provisional := ⟨[]⟩

/-- A single file. -/
def file (p : Path) : Provisional := ⟨[p]⟩

/-- One more file. -/
def track (files : Provisional) (p : Path) : Provisional := ⟨files.paths ++ [p]⟩

/-- Removes the files. -/
def discard (files : Provisional) (d : Disk) : Except Fault Unit × Disk := d.removeAll files.paths

end Provisional

end Slidecast.Files
