import Slidecast.Progress.Stage
import Slidecast.Progress.Roster

/-!
# Trackers

A tracker knows which stages are completed and tells a roster, if it has one, when a stage starts
and when it is completed.  A completed stage counts in the notice of its own completion, and
counts once.
-/

set_option autoImplicit false

namespace Slidecast.Progress

/-- The completed stages, and who is told. -/
structure Tracker where
  roster : Option Roster := none
  completed : List Stage := []
  deriving DecidableEq

namespace Tracker

/-- How much is done, in percent. -/
def percent (t : Tracker) : Number.Single := percentDone t.completed

/-- The notice about a stage at this moment. -/
def notice (t : Tracker) (stage : Stage) (stepPercent : Number.Single)
    (details : Option String) : Notice :=
  Notice.clamped stage.title stepPercent t.percent details

/-- Tells the roster about a stage. -/
def report (t : Tracker) (stage : Stage) (stepPercent : Number.Single)
    (details : Option String) (audience : Audience) : Audience :=
  match t.roster with
  | some roster => roster.notify (t.notice stage stepPercent details) audience
  | none => audience

/-- The tracker after a stage is completed. -/
def withCompleted (t : Tracker) (stage : Stage) : Tracker :=
  { t with completed := if stage ∈ t.completed then t.completed else t.completed ++ [stage] }

/-- The tracker before any stage is completed. -/
def reset (t : Tracker) : Tracker := { t with completed := [] }

end Tracker

/-- A tracker, if progress is tracked at all, and the audience. -/
structure Board where
  tracker : Option Tracker := none
  audience : Audience := []
  deriving DecidableEq

namespace Board

/-- Gives the tracker a new roster; starts to track if progress was not tracked. -/
def setRoster (b : Board) (roster : Roster) : Board :=
  { b with tracker := some { b.tracker.getD {} with roster := some roster } }

/-- Seats an observer and registers it with the tracker, if that has a roster; gives the number
of the observer. -/
def observe (b : Board) (kind : ObserverKind) : Option Nat × Board :=
  let audience := b.audience ++ [{ kind := kind }]
  match b.tracker with
  | some ⟨some roster, completed⟩ =>
      let (number, roster) := roster.add b.audience.length
      (some number, { tracker := some ⟨some roster, completed⟩, audience := audience })
  | _ => (none, { b with audience := audience })

/-- Tells that a stage starts. -/
def start (b : Board) (stage : Stage) : Board :=
  match b.tracker with
  | some t => { b with audience := t.report stage 0 none b.audience }
  | none => b

/-- Tells that a stage is completed. -/
def complete (b : Board) (stage : Stage) (details : Option String) : Board :=
  match b.tracker with
  | some t =>
      let t := t.withCompleted stage
      { tracker := some t, audience := t.report stage 100 details b.audience }
  | none => b

/-- Forgets which stages are completed. -/
def reset (b : Board) : Board := { b with tracker := b.tracker.map Tracker.reset }

end Board

end Slidecast.Progress
