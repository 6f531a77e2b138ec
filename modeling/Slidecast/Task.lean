/-!
# Tasks that share a state

A task is a row of steps that change a state which it may share with other tasks.  A step is not
interrupted; between two steps, other tasks may take theirs.  A task ends by itself after
finitely many steps, whatever the others do.

`Task.run` takes all steps of a task in a row.  `Task.both` takes the steps of two tasks in a
given order of turns and ends when both have ended; every way in which two tasks can take turns
is the one of some order.
-/

set_option autoImplicit false

namespace Slidecast

/-- A row of steps on a state `σ` that ends with a value. -/
inductive Task (σ α : Type) where
  | done (value : α)
  | step (effect : σ → σ) (next : σ → Task σ α)

/-- Whose turn it is to take a step. -/
inductive Turn where
  | left
  | right
  deriving DecidableEq

namespace Task

variable {σ α β γ : Type}

/-- One step that changes the state and gives a value. -/
def act (f : σ → α × σ) : Task σ α := .step (fun s => (f s).2) (fun s => .done (f s).1)

/-- The steps of one task and then those of another. -/
def bind : Task σ α → (α → Task σ β) → Task σ β
  | .done a, f => f a
  | .step effect next, f => .step effect fun s => (next s).bind f

instance : Monad (Task σ) where
  pure := .done
  bind := bind

/-- Takes all steps in a row. -/
def run : Task σ α → σ → α × σ
  | .done a, s => (a, s)
  | .step effect next, s => (next s).run (effect s)

/-- Takes the steps of two tasks in the order of turns, and when no turns are left, the rest of
the first and then the rest of the second.  The turn of a task that has ended is passed over. -/
def both : List Turn → Task σ α → Task σ β → Task σ (α × β)
  | [], a, b => a.bind fun x => b.bind fun y => .done (x, y)
  | .left :: turns, .step effect next, b => .step effect fun s => both turns (next s) b
  | .left :: turns, .done x, b => both turns (.done x) b
  | .right :: turns, a, .step effect next => .step effect fun s => both turns a (next s)
  | .right :: turns, a, .done y => both turns a (.done y)

/-! ## Runs of composed tasks -/

@[simp] theorem pure_eq_done (a : α) : (pure a : Task σ α) = .done a := rfl

@[simp] theorem bind_eq_bind (t : Task σ α) (f : α → Task σ β) : (t >>= f) = t.bind f := rfl

@[simp] theorem run_done (a : α) (s : σ) : (Task.done a).run s = (a, s) := rfl

@[simp] theorem run_act (f : σ → α × σ) (s : σ) : (act f).run s = f s := rfl

@[simp] theorem run_bind (t : Task σ α) (f : α → Task σ β) (s : σ) :
    (t.bind f).run s = (f (t.run s).1).run (t.run s).2 := by
  induction t generalizing s with
  | done a => rfl
  | step effect next ih => exact ih s (effect s)

theorem bind_done (t : Task σ α) : t.bind .done = t := by
  induction t with
  | done a => rfl
  | step effect next ih => exact congrArg (Task.step effect) (funext ih)

theorem bind_bind (t : Task σ α) (f : α → Task σ β) (g : β → Task σ γ) :
    (t.bind f).bind g = t.bind fun a => (f a).bind g := by
  induction t with
  | done a => rfl
  | step effect next ih => exact congrArg (Task.step effect) (funext ih)

end Task

end Slidecast
