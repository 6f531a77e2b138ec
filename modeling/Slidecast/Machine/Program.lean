import Slidecast.Files.Disk
import Slidecast.Machine.Bytes
import Slidecast.Machine.Signal

/-!
# Programs

A program is started with its name, its arguments and an input.  It reads from its input, writes
to its output and to its error output, takes some time, and ends with a status or by a signal.

An input may be endless, and so may be what a program does: it then never ends by itself.  What
has no end is given by a row of bytes that comes again and again.
-/

set_option autoImplicit false

namespace Slidecast.Machine

open Files

/-- What can be read: the bytes that are there, and those that follow them again and again. -/
structure Supply where
  bytes : Bytes := []
  cycle : Bytes := []
  deriving DecidableEq

namespace Supply

/-- Whether a supply has no end. -/
def isEndless (s : Supply) : Bool := !s.cycle.isEmpty

/-- Whether there is nothing to be read. -/
def isSpent (s : Supply) : Bool := s.bytes.isEmpty && s.cycle.isEmpty

/-- The same supply with at least the given number of bytes in front, if it has so many. -/
def extended (s : Supply) (n : Nat) : Supply :=
  if s.cycle.isEmpty then s
  else
    let rounds := n / s.cycle.length + 1
    { s with bytes := s.bytes ++ (List.replicate rounds s.cycle).flatten }

/-- The first bytes of a supply, and what is left of it. -/
def splitAt (s : Supply) (n : Nat) : Bytes × Supply :=
  let s := if s.bytes.length < n then s.extended (n - s.bytes.length) else s
  (s.bytes.take n, { s with bytes := s.bytes.drop n })

/-- The first lines of a supply, each with its end, and what is left of it. -/
def splitLines (s : Supply) (n : Nat) : Bytes × Supply :=
  let s := if s.cycle.contains '\n' then s.extended (n * s.cycle.length) else s
  let step (state : Nat × Bytes × Bytes) (c : Char) : Nat × Bytes × Bytes :=
    let (more, taken, left) := state
    if more = 0 then (0, taken, c :: left)
    else (if c = '\n' then more - 1 else more, c :: taken, left)
  let (_, taken, left) := s.bytes.foldl step (n, [], [])
  (taken.reverse, { s with bytes := left.reverse })

/-- The supplies one after the other; nothing comes behind one that is endless. -/
def append (a b : Supply) : Supply :=
  if a.isEndless then a else { bytes := a.bytes ++ b.bytes, cycle := b.cycle }

end Supply

/-- How a program is started. -/
structure Start where
  name : Bytes
  arguments : List Bytes
  input : Supply := {}
  /-- The variables that the program is given. -/
  environment : List (Bytes × Bytes) := []

/-- The outputs of a program. -/
inductive Output where
  | out
  | err
  deriving DecidableEq

/-- What a program has done. -/
structure Outcome where
  /-- What it has written, and where. -/
  written : List (Output × Bytes) := []
  /-- What it then writes to its output again and again. -/
  cycle : Bytes := []
  /-- What it has left of its input, if it has read from it. -/
  left : Option Supply := none
  /-- How many milliseconds it took. -/
  elapsed : Nat := 0
  /-- Whether it never ends by itself. -/
  endless : Bool := false
  ending : Ending := .exited 0

/-- What has been written to an output. -/
def Outcome.writtenTo (o : Outcome) (output : Output) : Bytes :=
  (o.written.filterMap fun piece => if piece.1 = output then some piece.2 else none).flatten

/-- What a program does when it is started. -/
abbrev Program : Type := Start → Disk → Outcome × Disk

/-- The programs of a machine, by name. -/
abbrev Shelf : Type := List (String × Program)

/-- Writes a text and ends well. -/
def say (bytes : Bytes) : Outcome := { written := [(.out, bytes)] }

/-- Fails with a message. -/
def complain (message : Bytes) (status : Nat) : Outcome :=
  { written := [(.err, message ++ ['\n'])], ending := .exited status }

/-- The words that a program uses for a fault. -/
def faultWords (fault : Fault) : String :=
  String.ofList (fault.message.toList.takeWhile (· ≠ '(')).dropLast

/-- The bytes of a file. -/
def contentBytes : Content → Bytes
  | .text text => .ofText text
  | .bytes octets => .ofOctets octets
  | .picture _ _ => [Char.ofNat 255, Char.ofNat 216, Char.ofNat 255]
  | .program _ => '\x7f' :: "ELF\x02\x01\x01".toList ++ List.replicate 9 (Char.ofNat 0)

/-- The path that a row of bytes spells. -/
def pathOf (bytes : Bytes) : Path := ⟨bytes.name⟩

/-- What can be read from a device. -/
def deviceSupply : Device → Supply
  | .null | .missing => {}
  | .endless | .full => { cycle := [Char.ofNat 0] }

/-- What can be read from the file at a path. -/
def fileSupply (disk : Disk) (path : Path) : Except Fault Supply := do
  match ← disk.find path with
  | (_, .file content) => .ok { bytes := contentBytes content }
  | (_, .device device) => do
      device.opens
      .ok (deviceSupply device)
  | (_, .directory) => .error .isDirectory
  | (_, .link _) => .error .noEntry

end Slidecast.Machine
