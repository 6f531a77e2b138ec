import Slidecast.Task
import Slidecast.Tool.Toolbox
import Slidecast.Files.Provisional
import Slidecast.Progress.Tracker

/-!
# Actions

An action is a task on the world that may fail.  The world is what actions share: the disk, the
calls of media tools so far, and the board on which progress is shown.

Whatever looks at the world or changes it is a single step.
-/

set_option autoImplicit false

namespace Slidecast

open Files Progress

/-- What actions share. -/
structure World where
  disk : Disk
  calls : List ToolCall := []
  board : Board := {}

/-- A task on the world that may fail. -/
abbrev Action (α : Type) : Type := ExceptT Failure (Task World) α

namespace Action

variable {α : Type}

/-- One step on the world. -/
def step (f : World → Except Failure α × World) : Action α := ExceptT.mk (Task.act f)

/-- Fails if a check does. -/
def check (result : Except Failure α) : Action α := ExceptT.mk (.done result)

/-- Performs an action and gives how it came out. -/
def attempt (action : Action α) : Action (Except Failure α) :=
  ExceptT.mk (action.run.bind fun result => .done (.ok result))

/-- Asks the disk. -/
def ask (question : Disk → α) : Action α := step fun w => (.ok (question w.disk), w)

/-- Reads from the disk; a fault becomes a failure. -/
def readDisk (read : Disk → Except Fault α) (failure : Fault → Failure) : Action α :=
  step fun w => ((read w.disk).mapError failure, w)

/-- Changes the disk, unless that is refused. -/
def changeDisk (change : Disk → Except Fault Disk) : Action Unit :=
  step fun w =>
    match change w.disk with
    | .ok disk => (.ok (), { w with disk := disk })
    | .error fault => (.error (.io fault), w)

/-- Makes a directory with all that leads to it. -/
def provideDirectory (p : Path) : Action Unit :=
  step fun w =>
    let (result, disk) := w.disk.provideDirectory p
    (result.mapError .io, { w with disk := disk })

/-- Calls a media tool. -/
def call (toolbox : Toolbox) (tool : Tool) (arguments : List String) : Action ToolOutput :=
  step fun w =>
    let request : ToolCall := ⟨tool, arguments⟩
    let (result, disk) := toolbox w.calls request w.disk
    (result, { w with disk := disk, calls := w.calls ++ [request] })

/-- Changes the board. -/
def post (change : Board → Board) : Action Unit :=
  step fun w => (.ok (), { w with board := change w.board })

/-- Removes files that an operation leaves behind, as far as they can be removed. -/
def discard (files : Provisional) : Action Unit :=
  step fun w => (.ok (), { w with disk := (files.discard w.disk).2 })

/-- Performs an action whose files stay only if it succeeds. -/
def keeping (files : Provisional) (action : Action α) : Action α := do
  match ← attempt action with
  | .ok a => pure a
  | .error failure =>
      discard files
      throw failure

/-- Performs two actions that take turns, each of them to its end, and gives how both came out. -/
def together {β : Type} (turns : List Turn) (a : Action α) (b : Action β) :
    Action (Except Failure α × Except Failure β) :=
  ExceptT.mk ((Task.both turns a.run b.run).bind fun results => .done (.ok results))

/-- Performs an action by itself. -/
def perform (action : Action α) (w : World) : Except Failure α × World := Task.run action.run w

/-! ## What is performed -/

section Performed

variable {β : Type}

@[simp] theorem perform_pure (a : α) (w : World) :
    perform (pure a : Action α) w = (.ok a, w) := rfl

@[simp] theorem perform_throw (failure : Failure) (w : World) :
    perform (throw failure : Action α) w = (.error failure, w) := rfl

@[simp] theorem perform_step (f : World → Except Failure α × World) (w : World) :
    perform (step f) w = f w := rfl

@[simp] theorem perform_check (result : Except Failure α) (w : World) :
    perform (check result) w = (result, w) := rfl

@[simp] theorem perform_ask (question : Disk → α) (w : World) :
    perform (ask question) w = (.ok (question w.disk), w) := rfl

@[simp] theorem perform_post (change : Board → Board) (w : World) :
    perform (post change) w = (.ok (), { w with board := change w.board }) := rfl

/-- An action is followed by another one if it succeeds. -/
@[simp] theorem perform_bind (action : Action α) (next : α → Action β) (w : World) :
    perform (action >>= next) w =
      match perform action w with
      | (.ok a, w') => perform (next a) w'
      | (.error failure, w') => (.error failure, w') := by
  have split : perform (action >>= next) w =
      Task.run (ExceptT.bindCont next (Task.run action.run w).1) (Task.run action.run w).2 :=
    Task.run_bind action.run (ExceptT.bindCont next) w
  rw [split, perform]
  rcases Task.run action.run w with ⟨result, w'⟩
  cases result with
  | ok a => rfl
  | error failure => rfl

/-- An attempt always succeeds, and does to the world what the action does. -/
@[simp] theorem perform_attempt (action : Action α) (w : World) :
    perform (attempt action) w = (.ok (perform action w).1, (perform action w).2) :=
  Task.run_bind action.run
    (fun result => Task.done (Except.ok result : Except Failure (Except Failure α))) w

/-- Files that are kept provisionally are discarded after a failure, and only then. -/
theorem perform_keeping (files : Provisional) (action : Action α) (w : World) :
    perform (keeping files action) w =
      match perform action w with
      | (.ok a, w') => (.ok a, w')
      | (.error failure, w') =>
          (.error failure, { w' with disk := (files.discard w'.disk).2 }) := by
  unfold keeping
  rw [perform_bind, perform_attempt]
  rcases perform action w with ⟨result, w'⟩
  cases result with
  | ok a => rfl
  | error failure => rfl

end Performed

end Action

end Slidecast
