import Slidecast.Job.Basic
import Slidecast.Project.Exchange

/-!
# Jobs from files

A job may also take its project and its utterance from files.  The media of the project are then
looked for in the directory in which the project is.
-/

set_option autoImplicit false

namespace Slidecast.Job

open Files

/-- Does the job that two files describe. -/
def prepare (settings : Settings) (toolbox : Toolbox) (project utterance : Path)
    (id createdAt : String) (schedule : Schedule) : Action Deliverables := do
  let described ← Project.load project
  let spoken ← Speech.Utterance.load utterance
  process settings toolbox
    { id := id, project := described, utterance := spoken,
      base := project.parent?.getD ⟨""⟩, createdAt := createdAt } schedule

end Slidecast.Job
