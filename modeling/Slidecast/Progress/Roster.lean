import Slidecast.Progress.Notice

/-!
# Observers and rosters

The audience is the row of all observers there ever were, in the order in which they came, with
the notices that each of them has received.  A roster says which observers are told: it gives
every observer that is added the next number, never gives a number twice, and tells each
registered observer once.  An observer that leaves a roster keeps what it has received.
-/

set_option autoImplicit false

namespace Slidecast.Progress

/-- What an observer does with notices. -/
inductive ObserverKind where
  /-- Keeps them. -/
  | memory
  /-- Calls back with each of them. -/
  | callback
  /-- Writes a line for each, behind an optional lead. -/
  | log (lead : Option String)
  deriving DecidableEq

/-- An observer and the notices it has received, in order. -/
structure Observer where
  kind : ObserverKind
  received : List Notice := []
  deriving DecidableEq

/-- All observers in the order in which they came. -/
abbrev Audience : Type := List Observer

namespace Audience

/-- Hands a notice to the observer at a seat. -/
def hand (audience : Audience) (seat : Nat) (notice : Notice) : Audience :=
  audience.modify seat fun o => { o with received := o.received ++ [notice] }

/-- Lets the observer at a seat forget what it has received. -/
def clear (audience : Audience) (seat : Nat) : Audience :=
  audience.modify seat fun o => { o with received := [] }

end Audience

/-- The registered observers: their numbers and where they sit. -/
structure Roster where
  nextNumber : Nat := 0
  members : List (Nat × Nat) := []
  deriving DecidableEq

namespace Roster

/-- Registers the observer at a seat; gives its number. -/
def add (r : Roster) (seat : Nat) : Nat × Roster :=
  (r.nextNumber,
    { nextNumber := r.nextNumber + 1, members := r.members ++ [(r.nextNumber, seat)] })

/-- Strikes a number off; gives the seat of the observer that had it. -/
def remove (r : Roster) (number : Nat) : Option Nat × Roster :=
  ((r.members.find? (·.1 = number)).map Prod.snd,
    { r with members := r.members.filter (·.1 ≠ number) })

/-- Tells all registered observers. -/
def notify (r : Roster) (notice : Notice) (audience : Audience) : Audience :=
  r.members.foldl (fun audience member => audience.hand member.2 notice) audience

end Roster

end Slidecast.Progress
