import Slidecast.Number.Notation

/-!
# Notices

A notice says how far a step has come and how far the whole has, both in percent from zero to a
hundred, and may give details.
-/

set_option autoImplicit false

namespace Slidecast.Progress

open Number

/-- What observers are told. -/
structure Notice where
  step : String
  stepPercent : Single
  totalPercent : Single
  details : Option String
  deriving DecidableEq

namespace Notice

/-- A notice with its percentages kept between zero and a hundred. -/
def clamped (step : String) (stepPercent totalPercent : Single) (details : Option String) :
    Notice where
  step := step
  stepPercent := stepPercent.clamp 0 100
  totalPercent := totalPercent.clamp 0 100
  details := details

/-- The line of a log for a notice, behind what the log puts in front. -/
def logLine (lead : Option String) (n : Notice) : String :=
  let details :=
    match n.details with
    | some text => if text.isEmpty then "" else s!" ({text})"
    | none => ""
  lead.getD "" ++ s!"[{n.totalPercent.fixed 1}%] {n.step}: {n.stepPercent.fixed 0}%" ++ details

end Notice

end Slidecast.Progress
