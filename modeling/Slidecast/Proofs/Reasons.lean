import Slidecast.Proofs.Tracing

/-!
# Reasons for failures

An action that runs among others may meet certain worlds when it takes its steps.  `Action.Yields`
says for what reasons it can fail then, and with what values it can succeed.  There is one rule for
each way in which actions are composed, so what an action yields is read off its parts; whoever is
followed by another action need not be considered for the values that it cannot have.

A failure is late if no check beforehand could have foreseen it: it blames neither the settings nor
the input.
-/

set_option autoImplicit false

namespace Slidecast

open Files

/-- Whether a failure blames neither the settings nor the input. -/
def Failure.isLate : Failure → Bool
  | .settings _ | .invalidInput _ => false
  | _ => true

theorem mem_of_mem_partOf {ε : Type} {who : Turn} {row : List (Turn × ε)} {e : ε}
    (member : e ∈ partOf who row) : e ∈ row.map Prod.snd := by
  obtain ⟨entry, among, rfl⟩ := List.mem_map.1 member
  exact List.mem_map.2 ⟨entry, List.mem_of_mem_filter among, rfl⟩

namespace Action

variable {α β : Type} {met : World → Prop} {reasons : Failure → Prop} {values : α → Prop}

/-- A success with a value, or a failure for a reason. -/
def Yielded (reasons : Failure → Prop) (values : α → Prop) : Except Failure α → Prop
  | .ok a => values a
  | .error failure => reasons failure

/-- An action that meets no worlds but these succeeds with certain values and fails for certain
reasons, whatever others do. -/
def Yields (met : World → Prop) (reasons : Failure → Prop) (values : α → Prop)
    (action : Action α) : Prop :=
  ∀ steps result, Ends action steps result → (∀ step ∈ steps, met step.1) →
    Yielded reasons values result

theorem Yielded.reason {result : Except Failure α} {failure : Failure}
    (yielded : Yielded reasons values result) (failed : result = .error failure) :
    reasons failure := by
  rw [failed] at yielded
  exact yielded

theorem Yielded.mono {others : Failure → Prop} {goals : α → Prop} {result : Except Failure α}
    (yielded : Yielded reasons values result) (widen : ∀ failure, reasons failure → others failure)
    (implies : ∀ a, values a → goals a) : Yielded others goals result := by
  cases result with
  | ok a => exact implies a yielded
  | error failure => exact widen failure yielded

theorem Yields.mono {others : Failure → Prop} {goals : α → Prop} {action : Action α}
    (yields : Yields met reasons values action)
    (widen : ∀ failure, reasons failure → others failure) (implies : ∀ a, values a → goals a) :
    Yields met others goals action :=
  fun steps result ends all => (yields steps result ends all).mono widen implies

theorem yields_check {result : Except Failure α} (yielded : Yielded reasons values result) :
    Yields met reasons values (check result) := by
  intro steps outcome ends _
  obtain ⟨_, rfl⟩ := ends_check_iff.1 ends
  exact yielded

theorem yields_pure {a : α} (holds : values a) : Yields met reasons values (pure a) := by
  have succeeded : Yielded reasons values (.ok a) := holds
  exact yields_check succeeded

theorem yields_throw {failure : Failure} (reason : reasons failure) :
    Yields met reasons values (throw failure) := by
  have failed : Yielded reasons values (.error failure) := reason
  exact yields_check failed

/-- A single step. -/
theorem yields_step {f : World → Except Failure α × World}
    (each : ∀ w, met w → Yielded reasons values (f w).1) : Yields met reasons values (step f) := by
  intro steps outcome ends all
  obtain ⟨w, rfl, rfl⟩ := ends_step_iff.1 ends
  exact each w (all _ (List.mem_singleton.2 rfl))

theorem yields_ask {question : Disk → α} (each : ∀ w, met w → values (question w.disk)) :
    Yields met reasons values (ask question) := yields_step each

theorem yields_post (change : Progress.Board → Progress.Board) :
    Yields met reasons (fun _ => True) (post change) := yields_step fun _ _ => trivial

theorem yields_changeDisk (faults : ∀ fault, reasons (.io fault))
    (change : Disk → Except Fault Disk) :
    Yields met reasons (fun _ => True) (changeDisk change) := by
  refine yields_step fun w _ => ?_
  split
  · exact trivial
  · exact faults _

theorem yields_provideDirectory (faults : ∀ fault, reasons (.io fault)) (p : Path) :
    Yields met reasons (fun _ => True) (provideDirectory p) := by
  refine yields_step fun w _ => ?_
  dsimp only
  cases (w.disk.provideDirectory p).1 with
  | ok _ => exact trivial
  | error fault => exact faults fault

theorem yields_discard (files : Provisional) :
    Yields met reasons (fun _ => True) (discard files) := yields_step fun _ _ => trivial

/-- A call that fails for reasons of the tool. -/
theorem yields_call {toolbox : Toolbox} {tool : Tool} {arguments : List String}
    (honest : ∀ calls d failure, (toolbox calls ⟨tool, arguments⟩ d).1 = .error failure →
      reasons failure) :
    Yields met reasons (fun _ => True) (call toolbox tool arguments) := by
  refine yields_step fun w _ => ?_
  dsimp only
  cases answer : (toolbox w.calls ⟨tool, arguments⟩ w.disk).1 with
  | ok output => exact trivial
  | error failure => exact honest w.calls w.disk failure answer

/-- An action and then another one, which has to be looked at for the values that it can be given
only. -/
theorem Yields.bind {goals : β → Prop} {action : Action α} {next : α → Action β}
    (first : Yields met reasons values action)
    (follows : ∀ a, values a → Yields met reasons goals (next a)) :
    Yields met reasons goals (action >>= next) := by
  intro steps outcome ends all
  obtain ⟨front, result, back, rfl, before, behind⟩ := ends_bind_iff.1 ends
  have yielded := first front result before fun step member =>
    all step (List.mem_append_left back member)
  cases result with
  | ok a =>
      exact follows a yielded back outcome behind fun step member =>
        all step (List.mem_append_right front member)
  | error failure =>
      obtain ⟨_, rfl⟩ := ends_throw_iff.1 behind
      exact yielded

/-- An action that fails at once. -/
theorem yields_throw_bind {goals : β → Prop} {failure : Failure} (next : α → Action β)
    (reason : reasons failure) : Yields met reasons goals (throw failure >>= next) :=
  yields_throw reason

theorem Yields.attempt {action : Action α} (yields : Yields met reasons values action)
    (others : Failure → Prop) :
    Yields met others (Yielded reasons values) (Action.attempt action) := by
  intro steps outcome ends all
  obtain ⟨front, result, back, rfl, before, behind⟩ := Task.ends_bind_iff.1 ends
  obtain ⟨rfl, rfl⟩ := Task.ends_done_iff.1 behind
  exact yields front result before fun step member => all step (List.mem_append_left [] member)

theorem Yields.keeping {action : Action α} (yields : Yields met reasons values action)
    (files : Provisional) : Yields met reasons values (Action.keeping files action) := by
  refine (yields.attempt reasons).bind fun outcome yielded => ?_
  cases outcome with
  | ok a => exact yields_pure yielded
  | error failure => exact (yields_discard files).bind fun _ _ => yields_throw yielded

/-- Two actions that take turns yield what each of them does. -/
theorem Yields.together {reasons' others : Failure → Prop} {goals : β → Prop} {a : Action α}
    {b : Action β} (turns : List Turn) (first : Yields met reasons values a)
    (second : Yields met reasons' goals b) :
    Yields met others
      (fun outcomes => Yielded reasons values outcomes.1 ∧ Yielded reasons' goals outcomes.2)
      (Action.together turns a b) := by
  intro steps outcome ends all
  obtain ⟨outcomes, rfl, row, rfl, left, right⟩ := ends.together
  refine ⟨first _ _ left fun step member => ?_, second _ _ right fun step member => ?_⟩
  · exact all step (mem_of_mem_partOf member)
  · exact all step (mem_of_mem_partOf member)

/-- An action by itself meets the worlds that it comes through. -/
theorem Yields.perform {action : Action α} {w : World}
    (yields : Yields (Meets action w) reasons values action) :
    Yielded reasons values (perform action w).1 := by
  obtain ⟨steps, ends, chained⟩ := exists_ends_perform action w
  refine yields steps _ ends fun step member => ?_
  exact ⟨steps, _, _, ends, chained, List.mem_map.2 ⟨step, member, rfl⟩⟩

end Action

end Slidecast
