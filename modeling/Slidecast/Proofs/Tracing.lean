import Slidecast.Proofs.Posting

/-!
# Courses of tasks

A task among others takes each of its steps in the state that the others leave to it.  A course of
the task is the row of its steps up to an end, each with the state that it finds and the one that it
leaves (`Task.Ends`).  A task by itself finds at every step what it has left with the one before
(`Task.Chains`), so it has exactly one course from each state (`Task.exists_ends_run`,
`Task.Ends.run_eq`).

In a course of two tasks that take turns, the steps of either one are a course of it, and every row
of which this is true is a course of the two in some order of turns (`Task.exists_ends_both_iff`).
-/

set_option autoImplicit false

namespace Slidecast

open Files

namespace Task

section Courses

variable {σ α β : Type}

/-- A task comes to an end by a row of steps, whatever others do between them. -/
inductive Ends : Task σ α → List (σ × σ) → α → Prop where
  | done (a : α) : Ends (.done a) [] a
  | step {effect : σ → σ} {next : σ → Task σ α} {s : σ} {steps : List (σ × σ)} {a : α} :
      Ends (next s) steps a → Ends (.step effect next) ((s, effect s) :: steps) a

/-- Every step finds what the one before has left. -/
def Chains : σ → List (σ × σ) → σ → Prop
  | s, [], s' => s = s'
  | s, (found, left) :: steps, s' => found = s ∧ Chains left steps s'

variable {t : Task σ α} {f : α → Task σ β} {steps : List (σ × σ)} {s s' : σ}

theorem ends_done_iff {a b : α} : Ends (.done a) steps b ↔ steps = [] ∧ b = a := by
  constructor
  · intro ends
    cases ends with
    | done => exact ⟨rfl, rfl⟩
  · rintro ⟨rfl, rfl⟩
    exact .done b

theorem ends_act_iff {act : σ → α × σ} {a : α} :
    Ends (Task.act act) steps a ↔ ∃ s, steps = [(s, (act s).2)] ∧ a = (act s).1 := by
  constructor
  · intro ends
    cases ends with
    | step rest =>
        obtain ⟨rfl, rfl⟩ := ends_done_iff.1 rest
        exact ⟨_, rfl, rfl⟩
  · rintro ⟨s, rfl, rfl⟩
    exact .step (.done _)

/-- **A course of two tasks, one after the other,** is a course of the first and one of the
second. -/
theorem ends_bind_iff {b : β} :
    Ends (t.bind f) steps b ↔
      ∃ front a back, steps = front ++ back ∧ Ends t front a ∧ Ends (f a) back b := by
  constructor
  · intro ends
    induction t generalizing steps with
    | done a => exact ⟨[], a, steps, rfl, .done a, ends⟩
    | step effect next ih =>
        cases ends with
        | step rest =>
            obtain ⟨front, a, back, rfl, first, second⟩ := ih _ rest
            exact ⟨_ :: front, a, back, rfl, .step first, second⟩
  · rintro ⟨front, a, back, rfl, first, second⟩
    induction first with
    | done a => exact second
    | step _ ih => exact .step (ih second)

/-- A task by itself takes a course from where it starts to where it ends. -/
theorem exists_ends_run (t : Task σ α) (s : σ) :
    ∃ steps, Ends t steps (t.run s).1 ∧ Chains s steps (t.run s).2 := by
  induction t generalizing s with
  | done a => exact ⟨[], .done a, rfl⟩
  | step effect next ih =>
      obtain ⟨steps, ends, chained⟩ := ih s (effect s)
      exact ⟨(s, effect s) :: steps, .step ends, rfl, chained⟩

/-- No other course leads on from there. -/
theorem Ends.run_eq {a : α} (ends : Ends t steps a) (chained : Chains s steps s') :
    t.run s = (a, s') := by
  induction ends generalizing s with
  | done a =>
      obtain rfl : s = s' := chained
      rfl
  | step _ ih =>
      obtain ⟨rfl, rest⟩ := chained
      exact ih rest

end Courses

/-! ## Turns -/

section Turns

variable {σ α β : Type} {a : Task σ α} {b : Task σ β} {steps : List (σ × σ)} {x : α} {y : β}

/-- In a course of two tasks, the steps of each are a course of it. -/
theorem Ends.parts (turns : List Turn) {results : α × β}
    (ends : Ends (both turns a b) steps results) :
    ∃ row : List (Turn × σ × σ), row.map Prod.snd = steps ∧ Ends a (partOf .left row) results.1 ∧
      Ends b (partOf .right row) results.2 := by
  induction turns generalizing a b steps with
  | nil =>
      obtain ⟨front, x, back, rfl, first, rest⟩ := ends_bind_iff.1 ends
      obtain ⟨back, y, ending, rfl, second, last⟩ := ends_bind_iff.1 rest
      obtain ⟨rfl, rfl⟩ := ends_done_iff.1 last
      refine ⟨front.map (Prod.mk .left) ++ back.map (Prod.mk .right), ?_, ?_, ?_⟩
      · rw [map_snd_own_append, map_snd_own, List.append_nil]
      · rw [partOf_own_append, partOf_map_other (by decide), List.append_nil]
        exact first
      · rw [partOf_other_append (by decide), partOf_map_self]
        exact second
  | cons turn turns ih =>
      cases turn with
      | left =>
          cases a with
          | done x => exact ih ends
          | step effect next =>
              cases ends with
              | @step _ _ s _ _ rest =>
                  obtain ⟨row, rfl, first, second⟩ := ih rest
                  refine ⟨(.left, s, effect s) :: row, rfl, ?_, ?_⟩
                  · rw [partOf_cons_self]
                    exact .step first
                  · rw [partOf_cons_other (by decide)]
                    exact second
      | right =>
          cases b with
          | done y => exact ih ends
          | step effect next =>
              cases ends with
              | @step _ _ s _ _ rest =>
                  obtain ⟨row, rfl, first, second⟩ := ih rest
                  refine ⟨(.right, s, effect s) :: row, rfl, ?_, ?_⟩
                  · rw [partOf_cons_other (by decide)]
                    exact first
                  · rw [partOf_cons_self]
                    exact .step second

/-- Two tasks whose courses make up a row can take turns as the row says. -/
theorem ends_both (row : List (Turn × σ × σ)) (first : Ends a (partOf .left row) x)
    (second : Ends b (partOf .right row) y) :
    Ends (both (row.map Prod.fst) a b) (row.map Prod.snd) (x, y) := by
  induction row generalizing a b with
  | nil =>
      cases first with
      | done x =>
          cases second with
          | done y => exact .done (x, y)
  | cons entry row ih =>
      obtain ⟨turn, entry⟩ := entry
      cases turn with
      | left =>
          rw [partOf_cons_self] at first
          rw [partOf_cons_other (by decide)] at second
          cases first with
          | step rest => exact .step (ih rest second)
      | right =>
          rw [partOf_cons_other (by decide)] at first
          rw [partOf_cons_self] at second
          cases second with
          | step rest => exact .step (ih first rest)

/-- **Every way of taking turns.**  A row of steps is a course of two tasks in some order of turns
exactly if it is made up of a course of each. -/
theorem exists_ends_both_iff :
    (∃ turns, Ends (both turns a b) steps (x, y)) ↔
      ∃ row : List (Turn × σ × σ), row.map Prod.snd = steps ∧ Ends a (partOf .left row) x ∧
        Ends b (partOf .right row) y := by
  constructor
  · rintro ⟨turns, ends⟩
    exact ends.parts turns
  · rintro ⟨row, rfl, first, second⟩
    exact ⟨row.map Prod.fst, ends_both row first second⟩

end Turns

end Task

/-! ## Actions -/

namespace Action

variable {α β : Type} {action : Action α} {next : α → Action β} {steps : List (World × World)}

/-- An action comes to an end by a row of steps, whatever others do between them. -/
def Ends (action : Action α) (steps : List (World × World)) (result : Except Failure α) : Prop :=
  Task.Ends action.run steps result

/-- An action that starts in a world comes to take a step in another one. -/
def Meets (action : Action α) (w met : World) : Prop :=
  ∃ steps result w', Ends action steps result ∧ Task.Chains w steps w' ∧
    met ∈ steps.map Prod.fst

theorem ends_check_iff {result outcome : Except Failure α} :
    Ends (check result) steps outcome ↔ steps = [] ∧ outcome = result := Task.ends_done_iff

theorem ends_throw_iff {failure : Failure} {outcome : Except Failure α} :
    Ends (throw failure) steps outcome ↔ steps = [] ∧ outcome = .error failure :=
  Task.ends_done_iff

theorem ends_pure_iff {a : α} {outcome : Except Failure α} :
    Ends (pure a) steps outcome ↔ steps = [] ∧ outcome = .ok a := Task.ends_done_iff

theorem ends_step_iff {f : World → Except Failure α × World} {outcome : Except Failure α} :
    Ends (step f) steps outcome ↔ ∃ w, steps = [(w, (f w).2)] ∧ outcome = (f w).1 :=
  Task.ends_act_iff

/-- A course of two actions is one of the first and one of what follows its end. -/
theorem ends_bind_iff {outcome : Except Failure β} :
    Ends (action >>= next) steps outcome ↔
      ∃ front result back, steps = front ++ back ∧ Ends action front result ∧
        Ends (check result >>= next) back outcome :=
  Task.ends_bind_iff

/-- The course of an action by itself. -/
theorem exists_ends_perform (action : Action α) (w : World) :
    ∃ steps, Ends action steps (perform action w).1 ∧ Task.Chains w steps (perform action w).2 :=
  Task.exists_ends_run action.run w

theorem Ends.perform_eq {result : Except Failure α} {w w' : World} (ends : Ends action steps result)
    (chained : Task.Chains w steps w') : perform action w = (result, w') :=
  Task.Ends.run_eq ends chained

/-- The ends of two actions that take turns are those of the actions. -/
theorem Ends.together {b : Action β} {turns : List Turn}
    {result : Except Failure (Except Failure α × Except Failure β)}
    (ends : Ends (Action.together turns action b) steps result) :
    ∃ outcomes, result = .ok outcomes ∧ ∃ row : List (Turn × World × World),
      row.map Prod.snd = steps ∧ Ends action (partOf .left row) outcomes.1 ∧
        Ends b (partOf .right row) outcomes.2 := by
  obtain ⟨front, outcomes, back, rfl, both, last⟩ := Task.ends_bind_iff.1 ends
  obtain ⟨rfl, rfl⟩ := Task.ends_done_iff.1 last
  rw [List.append_nil]
  exact ⟨outcomes, rfl, both.parts turns⟩

/-- Two actions whose courses make up a row can take turns as the row says. -/
theorem ends_together {b : Action β} (row : List (Turn × World × World))
    {x : Except Failure α} {y : Except Failure β} (first : Ends action (partOf .left row) x)
    (second : Ends b (partOf .right row) y) :
    Ends (Action.together (row.map Prod.fst) action b) (row.map Prod.snd) (.ok (x, y)) :=
  Task.ends_bind_iff.2
    ⟨_, (x, y), [], (List.append_nil _).symm, Task.ends_both row first second, .done _⟩

end Action

end Slidecast
