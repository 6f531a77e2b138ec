import Slidecast.Action
import Slidecast.Proofs.Progress.Told

/-!
# What tasks post

A task tells what it posts on the board, step by step, whatever others do to the world in between:
`Task.Tells` relates its value to the row of all its posts.  Two tasks that take turns post what each
of them does, in an order of which no more is known than that each row stays in its own order
(`Tells.both`).

Of an action, only what it posts when it succeeds matters (`Action.Tells`), unless it never posts
anything (`Action.Quiet`).
-/

set_option autoImplicit false

namespace Slidecast

open Files Progress

/-- What one of two parties has contributed to a row. -/
def partOf {ε : Type} (who : Turn) (row : List (Turn × ε)) : List ε :=
  (row.filter fun entry => entry.1 = who).map Prod.snd

section Parts

variable {ε : Type} {who : Turn} {row : List (Turn × ε)}

@[simp] theorem partOf_nil : partOf who ([] : List (Turn × ε)) = [] := rfl

theorem partOf_cons_self (e : ε) : partOf who ((who, e) :: row) = e :: partOf who row := by
  simp [partOf]

theorem partOf_cons_other {other : Turn} (apart : other ≠ who) (e : ε) :
    partOf who ((other, e) :: row) = partOf who row := by
  simp [partOf, apart]

@[simp] theorem partOf_append (front back : List (Turn × ε)) :
    partOf who (front ++ back) = partOf who front ++ partOf who back := by
  simp [partOf]

theorem partOf_map_self (events : List ε) : partOf who (events.map (Prod.mk who)) = events := by
  induction events with
  | nil => rfl
  | cons e events ih => rw [List.map_cons, partOf_cons_self, ih]

theorem partOf_map_other {other : Turn} (apart : other ≠ who) (events : List ε) :
    partOf who (events.map (Prod.mk other)) = [] := by
  induction events with
  | nil => rfl
  | cons e events ih => rw [List.map_cons, partOf_cons_other apart, ih]

/-- One party contributes some more. -/
theorem partOf_own_append (events : List ε) :
    partOf who (events.map (Prod.mk who) ++ row) = events ++ partOf who row := by
  rw [partOf_append, partOf_map_self]

/-- Another party contributes some more. -/
theorem partOf_other_append {other : Turn} (apart : other ≠ who) (events : List ε) :
    partOf who (events.map (Prod.mk other) ++ row) = partOf who row := by
  rw [partOf_append, partOf_map_other apart, List.nil_append]

theorem map_snd_own (events : List ε) : (events.map (Prod.mk who)).map Prod.snd = events := by
  simp [Function.comp_def]

theorem map_snd_own_append (events : List ε) :
    (events.map (Prod.mk who) ++ row).map Prod.snd = events ++ row.map Prod.snd := by
  rw [List.map_append, map_snd_own]

/-- Everything has been contributed by one of the two. -/
theorem mem_partOf_of_mem {e : ε} (among : e ∈ row.map Prod.snd) :
    e ∈ partOf .left row ∨ e ∈ partOf .right row := by
  obtain ⟨⟨turn, e⟩, member, rfl⟩ := List.mem_map.1 among
  cases turn with
  | left => exact .inl (List.mem_map.2 ⟨_, List.mem_filter.2 ⟨member, rfl⟩, rfl⟩)
  | right => exact .inr (List.mem_map.2 ⟨_, List.mem_filter.2 ⟨member, rfl⟩, rfl⟩)

/-- What is kept of nobody else's is what is kept of one party's own. -/
theorem filter_map_snd (who : Turn) {kept : ε → Bool}
    (others : ∀ other, other ≠ who → ∀ e ∈ partOf other row, kept e = false) :
    (row.map Prod.snd).filter kept = (partOf who row).filter kept := by
  induction row with
  | nil => rfl
  | cons entry row ih =>
      obtain ⟨turn, e⟩ := entry
      have rest : ∀ other, other ≠ who → ∀ e' ∈ partOf other row, kept e' = false := by
        intro other apart e' member
        refine others other apart e' ?_
        by_cases same : turn = other
        · subst same
          rw [partOf_cons_self]
          exact List.mem_cons_of_mem e member
        · rwa [partOf_cons_other same]
      rw [List.map_cons, List.filter_cons]
      by_cases own : turn = who
      · subst own
        rw [partOf_cons_self, List.filter_cons, ih rest]
      · have dropped : kept e = false := by
          refine others turn own e ?_
          rw [partOf_cons_self]
          exact List.mem_cons_self
        rw [partOf_cons_other own, ih rest, dropped]
        rfl

theorem filter_map_snd_left {kept : ε → Bool} (others : ∀ e ∈ partOf .right row, kept e = false) :
    (row.map Prod.snd).filter kept = (partOf .left row).filter kept := by
  refine filter_map_snd .left fun other apart => ?_
  cases other with
  | left => exact absurd rfl apart
  | right => exact others

theorem filter_map_snd_right {kept : ε → Bool} (others : ∀ e ∈ partOf .left row, kept e = false) :
    (row.map Prod.snd).filter kept = (partOf .right row).filter kept := by
  refine filter_map_snd .right fun other apart => ?_
  cases other with
  | left => exact others
  | right => exact absurd rfl apart

theorem length_eq_parts (row : List (Turn × ε)) :
    row.length = (partOf .left row).length + (partOf .right row).length := by
  induction row with
  | nil => rfl
  | cons entry row ih =>
      obtain ⟨who, e⟩ := entry
      cases who with
      | left =>
          rw [partOf_cons_self, partOf_cons_other (by decide)]
          simp only [List.length_cons, ih]
          omega
      | right =>
          rw [partOf_cons_self, partOf_cons_other (by decide)]
          simp only [List.length_cons, ih]
          omega

end Parts

namespace Task

variable {α β : Type}

/-- Whatever others do, a task ends with a value and a row of posts of which a claim holds. -/
def Tells : Task World α → (List Post → α → Prop) → Prop
  | .done a, claim => claim [] a
  | .step effect next, claim => ∀ w, ∃ posts, (effect w).board = w.board.after posts ∧
      (next w).Tells fun later a => claim (posts ++ later) a

theorem Tells.mono {claim other : List Post → α → Prop} {t : Task World α} (tells : t.Tells claim)
    (implies : ∀ posts a, claim posts a → other posts a) : t.Tells other := by
  induction t generalizing claim other with
  | done a => exact implies [] a tells
  | step effect next ih =>
      intro w
      obtain ⟨posts, posted, rest⟩ := tells w
      exact ⟨posts, posted, ih w rest fun later a => implies (posts ++ later) a⟩

/-- One task after another. -/
theorem Tells.bind {claim : List Post → α → Prop} {goal : List Post → β → Prop} {t : Task World α}
    {f : α → Task World β} (tells : t.Tells claim)
    (next : ∀ posts a, claim posts a → (f a).Tells fun later b => goal (posts ++ later) b) :
    (t.bind f).Tells goal := by
  induction t generalizing claim goal with
  | done a => exact next [] a tells
  | step effect rest ih =>
      intro w
      obtain ⟨posts, posted, tellsRest⟩ := tells w
      refine ⟨posts, posted, ih w tellsRest fun later a holds => ?_⟩
      refine (next (posts ++ later) a holds).mono fun last b reached => ?_
      rwa [List.append_assoc] at reached

/-- A task by itself. -/
theorem Tells.run {claim : List Post → α → Prop} {t : Task World α} (tells : t.Tells claim)
    (w : World) :
    ∃ posts, (t.run w).2.board = w.board.after posts ∧ claim posts (t.run w).1 := by
  induction t generalizing claim w with
  | done a => exact ⟨[], rfl, tells⟩
  | step effect next ih =>
      obtain ⟨posts, posted, rest⟩ := tells w
      obtain ⟨later, done, holds⟩ := ih w rest (effect w)
      refine ⟨posts ++ later, ?_, holds⟩
      rw [Board.after_append, ← posted]
      exact done

/-! ## Turns -/

/-- A row of posts of two tasks, with what each of them claims of its own. -/
def Shared (left : List Post → α → Prop) (right : List Post → β → Prop) (posts : List Post)
    (results : α × β) : Prop :=
  ∃ row : List (Turn × Post), row.map Prod.snd = posts ∧ left (partOf .left row) results.1 ∧
    right (partOf .right row) results.2

section Turns

variable {left : List Post → α → Prop} {right : List Post → β → Prop} {a : Task World α}
  {b : Task World β}

/-- What the first task has posted comes before what it still posts. -/
theorem Shared.of_left {posts later : List Post} {results : α × β}
    (shared : Shared (fun later x => left (posts ++ later) x) right later results) :
    Shared left right (posts ++ later) results := by
  obtain ⟨row, rfl, first, second⟩ := shared
  refine ⟨posts.map (Prod.mk .left) ++ row, ?_, ?_, ?_⟩
  · exact map_snd_own_append posts
  · rw [partOf_own_append]
    exact first
  · rw [partOf_other_append (by decide)]
    exact second

theorem Shared.of_right {posts later : List Post} {results : α × β}
    (shared : Shared left (fun later y => right (posts ++ later) y) later results) :
    Shared left right (posts ++ later) results := by
  obtain ⟨row, rfl, first, second⟩ := shared
  refine ⟨posts.map (Prod.mk .right) ++ row, ?_, ?_, ?_⟩
  · exact map_snd_own_append posts
  · rw [partOf_other_append (by decide)]
    exact first
  · rw [partOf_own_append]
    exact second

/-- **Two tasks that take turns** post what each of them does. -/
theorem Tells.both (turns : List Turn) (first : a.Tells left) (second : b.Tells right) :
    (both turns a b).Tells (Shared left right) := by
  induction turns generalizing a b left right with
  | nil =>
      refine first.bind fun posts x holds => second.bind fun later y holds' => ?_
      refine Shared.of_left ⟨later.map (Prod.mk .right), ?_, ?_, ?_⟩
      · simp [Function.comp_def]
      · rw [partOf_map_other (by decide)]
        show left (posts ++ []) x
        rwa [List.append_nil]
      · rwa [partOf_map_self]
  | cons turn turns ih =>
      cases turn with
      | left =>
          cases a with
          | done x => exact ih first second
          | step effect next =>
              intro w
              obtain ⟨posts, posted, rest⟩ := first w
              exact ⟨posts, posted, (ih rest second).mono fun _ _ => .of_left⟩
      | right =>
          cases b with
          | done y => exact ih first second
          | step effect next =>
              intro w
              obtain ⟨posts, posted, rest⟩ := second w
              exact ⟨posts, posted, (ih first rest).mono fun _ _ => .of_right⟩

end Turns

end Task

/-! ## Actions -/

namespace Action

variable {α β : Type} {action : Action α} {claim : List Post → α → Prop}

/-- Whatever others do, an action that succeeds has posted a row of which a claim holds. -/
def Tells (action : Action α) (claim : List Post → α → Prop) : Prop :=
  Task.Tells action.run fun posts result => ∀ a, result = .ok a → claim posts a

/-- An action that never posts anything. -/
def Quiet (action : Action α) : Prop := Task.Tells action.run fun posts _ => posts = []

/-! ### Quiet actions -/

theorem quiet_pure (a : α) : Quiet (pure a : Action α) := rfl

theorem quiet_throw (failure : Failure) : Quiet (throw failure : Action α) := rfl

theorem quiet_throw_bind (failure : Failure) (next : α → Action β) :
    Quiet (throw failure >>= next) := rfl

theorem quiet_check (result : Except Failure α) : Quiet (check result) := rfl

/-- A step that leaves the board alone. -/
theorem quiet_step {f : World → Except Failure α × World}
    (still : ∀ w, (f w).2.board = w.board) : Quiet (step f) :=
  fun w => ⟨[], still w, rfl⟩

theorem Quiet.bind {next : α → Action β} (first : action.Quiet) (second : ∀ a, (next a).Quiet) :
    Quiet (action >>= next) := by
  refine Task.Tells.bind first fun posts result silent => ?_
  subst silent
  cases result with
  | ok a => exact second a
  | error failure => exact quiet_throw failure

theorem Quiet.attempt (quiet : action.Quiet) : Quiet (Action.attempt action) := by
  refine Task.Tells.bind quiet fun posts result silent => ?_
  subst silent
  exact quiet_pure result

theorem quiet_ask (question : Disk → α) : Quiet (ask question) := quiet_step fun _ => rfl

theorem quiet_changeDisk (change : Disk → Except Fault Disk) : Quiet (changeDisk change) := by
  refine quiet_step fun w => ?_
  split <;> rfl

theorem quiet_provideDirectory (p : Path) : Quiet (provideDirectory p) := quiet_step fun _ => rfl

theorem quiet_call (toolbox : Toolbox) (tool : Tool) (arguments : List String) :
    Quiet (call toolbox tool arguments) := quiet_step fun _ => rfl

theorem quiet_discard (files : Provisional) : Quiet (discard files) := quiet_step fun _ => rfl

theorem Quiet.keeping (files : Provisional) (quiet : action.Quiet) :
    Quiet (Action.keeping files action) := by
  refine quiet.attempt.bind fun outcome => ?_
  cases outcome with
  | ok a => exact quiet_pure a
  | error failure => exact (quiet_discard files).bind fun _ => quiet_throw failure

/-! ### What actions tell -/

theorem tells_pure {a : α} (holds : claim [] a) : Tells (pure a) claim := by
  intro other same
  cases same
  exact holds

theorem tells_throw (failure : Failure) : Tells (throw failure : Action α) claim := nofun

theorem tells_post {p : Post} : Tells (post (·.take p)) fun posts _ => posts = [p] :=
  fun _ => ⟨[p], rfl, fun _ _ => rfl⟩

theorem Tells.mono {other : List Post → α → Prop} (tells : action.Tells claim)
    (implies : ∀ posts a, claim posts a → other posts a) : action.Tells other :=
  Task.Tells.mono tells fun posts _ holds a same => implies posts a (holds a same)

/-- An action and then another one. -/
theorem Tells.bind {goal : List Post → β → Prop} {next : α → Action β} (tells : action.Tells claim)
    (follows : ∀ posts a, claim posts a → (next a).Tells fun later b => goal (posts ++ later) b) :
    (action >>= next).Tells goal := by
  refine Task.Tells.bind tells fun posts result holds => ?_
  cases result with
  | ok a => exact follows posts a (holds a rfl)
  | error failure => exact tells_throw failure

/-- A quiet action and then another one. -/
theorem Quiet.bind_tells {goal : List Post → β → Prop} {next : α → Action β}
    (quiet : action.Quiet) (follows : ∀ a, (next a).Tells goal) : (action >>= next).Tells goal := by
  refine Task.Tells.bind quiet fun posts result silent => ?_
  subst silent
  cases result with
  | ok a => exact follows a
  | error failure => exact tells_throw failure

/-- A post and then another action. -/
theorem tells_post_bind {p : Post} {goal : List Post → β → Prop} {next : Unit → Action β}
    (follows : (next ()).Tells fun later b => goal (p :: later) b) :
    (post (·.take p) >>= next).Tells goal := by
  refine tells_post.bind fun posts _ same => ?_
  subst same
  exact follows

theorem tells_check_bind {result : Except Failure α} {goal : List Post → β → Prop}
    {next : α → Action β} (follows : ∀ a, result = .ok a → (next a).Tells goal) :
    (check result >>= next).Tells goal := by
  cases result with
  | ok a => exact follows a rfl
  | error failure => exact tells_throw failure

theorem Tells.attempt (tells : action.Tells claim) :
    (Action.attempt action).Tells fun posts outcome => ∀ a, outcome = .ok a → claim posts a := by
  refine Task.Tells.bind tells fun posts result holds => tells_pure ?_
  rw [List.append_nil]
  exact holds

/-- **Two actions that take turns** post what each of them does. -/
theorem Tells.together {b : Action β} {other : List Post → β → Prop} (turns : List Turn)
    (first : action.Tells claim) (second : b.Tells other) :
    (Action.together turns action b).Tells
      (Task.Shared (fun posts result => ∀ x, result = .ok x → claim posts x)
        fun posts result => ∀ y, result = .ok y → other posts y) := by
  refine Task.Tells.bind (Task.Tells.both turns first second) fun posts results shared => ?_
  refine tells_pure ?_
  rw [List.append_nil]
  exact shared

/-- An action by itself. -/
theorem Tells.perform (tells : action.Tells claim) (w : World) :
    ∃ posts, (Action.perform action w).2.board = w.board.after posts ∧
      ∀ a, (Action.perform action w).1 = .ok a → claim posts a :=
  Task.Tells.run tells w

end Action

end Slidecast
