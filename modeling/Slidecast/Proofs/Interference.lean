import Slidecast.Action

/-!
# Tasks among others

What a task does while others take their turns is told by terms: what holds at all times, what
the task relies on the others for, and what it guarantees to them in turn.  `Task.Secures` says
that a task keeps its guarantee with every step and ends where a statement about its value holds,
as long as the others keep to what it relies on.

A task may be excused.  Whoever takes a step after which every end is excused owes nothing from
there on: a failed call that may have done anything counts for nothing if the whole is bound to
fail.

Two tasks that rely on no more than what the other guarantees secure together what each of them
secures, in whatever order they take turns (`Secures.both`).
-/

set_option autoImplicit false

namespace Slidecast

open Files

namespace Task

/-- What holds at all times, what others leave alone, and what a task leaves alone for them. -/
structure Terms (σ : Type) where
  base : σ → Prop
  rely : σ → σ → Prop
  guarantee : σ → σ → Prop
  rely_refl : ∀ s, rely s s
  rely_trans : ∀ {s s' s''}, rely s s' → rely s' s'' → rely s s''
  base_of_guarantee : ∀ {s s'}, guarantee s s' → base s → base s'

/-- The terms of two tasks that share what is left to them by the whole. -/
structure Terms.Splits {σ : Type} (whole left right : Terms σ) : Prop where
  base_left : ∀ {s}, whole.base s → left.base s
  base_right : ∀ {s}, whole.base s → right.base s
  rely_left : ∀ {s s'}, whole.rely s s' → left.rely s s'
  rely_right : ∀ {s s'}, whole.rely s s' → right.rely s s'
  guarantee_left : ∀ {s s'}, left.guarantee s s' → whole.guarantee s s' ∧ right.rely s s'
  guarantee_right : ∀ {s s'}, right.guarantee s s' → whole.guarantee s s' ∧ left.rely s s'

/-- Terms that ask for less from others and leave more alone. -/
structure Terms.Narrows {σ : Type} (narrow wide : Terms σ) : Prop where
  base : ∀ {s}, wide.base s → narrow.base s
  rely : ∀ {s s'}, wide.rely s s' → narrow.rely s s'
  guarantee : ∀ {s s'}, narrow.guarantee s s' → wide.guarantee s s'

variable {σ α β : Type}

/-- A statement holds and keeps holding while only others take steps. -/
def Terms.Lasts (terms : Terms σ) (statement : σ → Prop) (s : σ) : Prop :=
  ∀ s', terms.rely s s' → terms.base s' → statement s'

/-- Every end of a task is of a kind, whatever others do. -/
def Always (kind : α → Prop) : Task σ α → Prop
  | .done a => kind a
  | .step _ next => ∀ s, (next s).Always kind

/-- A task that starts in `s` keeps its guarantee and ends with `post`, unless it is excused. -/
def Secures (terms : Terms σ) (excuse : α → Prop) (post : α → σ → Prop) : Task σ α → σ → Prop
  | .done a, s => excuse a ∨ terms.Lasts (post a) s
  | .step effect next, s => ∀ s', terms.rely s s' → terms.base s' →
      (next s').Always excuse ∨
        (terms.guarantee s' (effect s') ∧ (next s').Secures terms excuse post (effect s'))

/-! ## Ends -/

theorem Always.mono {kind other : α → Prop} {t : Task σ α} (always : t.Always kind)
    (implies : ∀ a, kind a → other a) : t.Always other := by
  induction t with
  | done a => exact implies a always
  | step effect next ih => exact fun s => ih s (always s)

theorem Always.bind {kind : α → Prop} {other : β → Prop} {t : Task σ α} {f : α → Task σ β}
    (always : t.Always kind) (implies : ∀ a, kind a → (f a).Always other) :
    (t.bind f).Always other := by
  induction t with
  | done a => exact implies a always
  | step effect next ih => exact fun s => ih s (always s)

theorem Always.run {kind : α → Prop} {t : Task σ α} (always : t.Always kind) (s : σ) :
    kind (t.run s).1 := by
  induction t generalizing s with
  | done a => exact always
  | step effect next ih => exact ih s (always s) (effect s)

theorem always_true (t : Task σ α) : t.Always fun _ => True := by
  induction t with
  | done a => trivial
  | step effect next ih => exact ih

/-- Of two tasks of which the first always ends in a kind, a pair with such a first part comes. -/
theorem Always.both_left {kind : α → Prop} {a : Task σ α} (always : a.Always kind)
    (turns : List Turn) (b : Task σ β) :
    (both turns a b).Always fun results => kind results.1 := by
  induction turns generalizing a b with
  | nil =>
      refine always.bind fun x isKind => ?_
      exact (always_true b).bind fun _ _ => isKind
  | cons turn turns ih =>
      cases turn with
      | left =>
          cases a with
          | done x => exact ih always b
          | step effect next => exact fun s => ih (always s) b
      | right =>
          cases b with
          | done y => exact ih always (.done y)
          | step effect next => exact fun s => ih always (next s)

theorem Always.both_right {kind : β → Prop} {b : Task σ β} (always : b.Always kind)
    (turns : List Turn) (a : Task σ α) :
    (both turns a b).Always fun results => kind results.2 := by
  induction turns generalizing a b with
  | nil =>
      refine (always_true a).bind fun x _ => ?_
      exact always.bind fun y isKind => isKind
  | cons turn turns ih =>
      cases turn with
      | left =>
          cases a with
          | done x => exact ih always (.done x)
          | step effect next => exact fun s => ih always (next s)
      | right =>
          cases b with
          | done y => exact ih always a
          | step effect next => exact fun s => ih (always s) a

/-! ## Rules -/

section Rules

variable {terms : Terms σ} {excuse : α → Prop} {post : α → σ → Prop}

theorem Terms.Lasts.now {statement : σ → Prop} {s : σ} (lasts : terms.Lasts statement s)
    (base : terms.base s) : statement s :=
  lasts s (terms.rely_refl s) base

theorem Terms.Lasts.of_rely {statement : σ → Prop} {s s' : σ} (lasts : terms.Lasts statement s)
    (rely : terms.rely s s') : terms.Lasts statement s' :=
  fun s'' later base => lasts s'' (terms.rely_trans rely later) base

theorem Terms.Lasts.mono {statement other : σ → Prop} {s : σ} (lasts : terms.Lasts statement s)
    (implies : ∀ s', terms.base s' → statement s' → other s') : terms.Lasts other s :=
  fun s' rely base => implies s' base (lasts s' rely base)

theorem Secures.of_always {t : Task σ α} (always : t.Always excuse) (s : σ) :
    t.Secures terms excuse post s := by
  cases t with
  | done a => exact .inl always
  | step effect next => exact fun s' _ _ => .inl (always s')

/-- What others do in the meantime changes nothing. -/
theorem Secures.of_rely {t : Task σ α} {s s' : σ} (secures : t.Secures terms excuse post s)
    (rely : terms.rely s s') : t.Secures terms excuse post s' := by
  cases t with
  | done a => exact secures.imp_right fun lasts => lasts.of_rely rely
  | step effect next => exact fun s'' later base => secures s'' (terms.rely_trans rely later) base

/-- One task after another. -/
theorem Secures.bind {excuse' : β → Prop} {post' : β → σ → Prop} {t : Task σ α}
    {f : α → Task σ β} {s : σ} (secures : t.Secures terms excuse post s) (base : terms.base s)
    (excused : ∀ a, excuse a → (f a).Always excuse')
    (next : ∀ a s, terms.base s → terms.Lasts (post a) s →
      (f a).Secures terms excuse' post' s) :
    (t.bind f).Secures terms excuse' post' s := by
  induction t generalizing s with
  | done a =>
      rcases secures with excuse | lasts
      · exact .of_always (excused a excuse) s
      · exact next a s base lasts
  | step effect rest ih =>
      intro s' rely base'
      rcases secures s' rely base' with always | ⟨kept, later⟩
      · exact .inl (always.bind excused)
      · exact .inr ⟨kept, ih s' later (terms.base_of_guarantee kept base')⟩

theorem Secures.mono {goal : α → σ → Prop} {t : Task σ α} {s : σ}
    (secures : t.Secures terms excuse post s)
    (implies : ∀ a s, terms.base s → post a s → goal a s) :
    t.Secures terms excuse goal s := by
  induction t generalizing s with
  | done a => exact secures.imp_right fun lasts => lasts.mono fun s' => implies a s'
  | step effect next ih =>
      intro s' rely base
      exact (secures s' rely base).imp_right fun ⟨kept, rest⟩ => ⟨kept, ih s' rest⟩

/-- **Whatever is left alone stays.**  A task on narrow terms secures on wide ones also what
neither it nor the others touch. -/
theorem Secures.frame {wide : Terms σ} {fact : σ → Prop} {t : Task σ α} {s : σ}
    (secures : t.Secures terms excuse post s) (narrows : Terms.Narrows terms wide)
    (kept : ∀ {s s'}, wide.base s → terms.guarantee s s' → fact s → fact s')
    (left : ∀ {s s'}, wide.base s → wide.base s' → wide.rely s s' → fact s → fact s')
    (base : wide.base s) (now : fact s) :
    t.Secures wide excuse (fun a s => post a s ∧ fact s) s := by
  induction t generalizing s with
  | done a =>
      refine secures.imp_right fun lasts s' rely base' => ⟨?_, left base base' rely now⟩
      exact lasts s' (narrows.rely rely) (narrows.base base')
  | step effect next ih =>
      intro s' rely base'
      have there := left base base' rely now
      rcases secures s' (narrows.rely rely) (narrows.base base') with always | ⟨own, rest⟩
      · exact .inl always
      · have base'' := wide.base_of_guarantee (narrows.guarantee own) base'
        exact .inr ⟨narrows.guarantee own, ih s' rest base'' (kept base' own there)⟩

/-- A task by itself. -/
theorem Secures.run {t : Task σ α} {s : σ} (secures : t.Secures terms excuse post s)
    (base : terms.base s) :
    excuse (t.run s).1 ∨ (terms.base (t.run s).2 ∧ post (t.run s).1 (t.run s).2) := by
  induction t generalizing s with
  | done a => exact secures.imp_right fun lasts => ⟨base, lasts.now base⟩
  | step effect next ih =>
      rcases secures s (terms.rely_refl s) base with always | ⟨kept, rest⟩
      · exact .inl (always.run (effect s))
      · exact ih s rest (terms.base_of_guarantee kept base)

end Rules

/-! ## Turns -/

section Turns

variable {whole left right : Terms σ} {excuseLeft : α → Prop} {excuseRight : β → Prop}
  {postLeft : α → σ → Prop} {postRight : β → σ → Prop} {a : Task σ α} {b : Task σ β} {s : σ}

/-- A pair is excused if a part of it is. -/
def eitherExcused (excuseLeft : α → Prop) (excuseRight : β → Prop) (results : α × β) : Prop :=
  excuseLeft results.1 ∨ excuseRight results.2

/-- What is secured by a pair. -/
def bothHold (postLeft : α → σ → Prop) (postRight : β → σ → Prop) (results : α × β) (s : σ) :
    Prop :=
  postLeft results.1 s ∧ postRight results.2 s

/-- The steps of the second task when the first has ended. -/
theorem Secures.bind_done (splits : Terms.Splits whole left right) {x : α}
    (ended : (Task.done x).Secures left excuseLeft postLeft s)
    (secures : b.Secures right excuseRight postRight s) :
    (b.bind fun y => .done (x, y)).Secures whole (eitherExcused excuseLeft excuseRight)
      (bothHold postLeft postRight) s := by
  induction b generalizing s with
  | done y =>
      rcases ended with excused | lasts
      · exact .inl (.inl excused)
      · rcases secures with excused | lasts'
        · exact .inl (.inr excused)
        · refine .inr fun s' rely base => ⟨?_, ?_⟩
          · exact lasts s' (splits.rely_left rely) (splits.base_left base)
          · exact lasts' s' (splits.rely_right rely) (splits.base_right base)
  | step effect next ih =>
      intro s' rely base
      rcases secures s' (splits.rely_right rely) (splits.base_right base) with
        always | ⟨kept, rest⟩
      · exact .inl (always.bind fun y excused => .inr excused)
      · have meanwhile := left.rely_trans (splits.rely_left rely) (splits.guarantee_right kept).2
        exact .inr ⟨(splits.guarantee_right kept).1, ih s' (ended.of_rely meanwhile) rest⟩

/-- The steps of two tasks, one task after the other. -/
theorem Secures.both_nil (splits : Terms.Splits whole left right)
    (first : a.Secures left excuseLeft postLeft s)
    (second : b.Secures right excuseRight postRight s) :
    (both [] a b).Secures whole (eitherExcused excuseLeft excuseRight)
      (bothHold postLeft postRight) s := by
  induction a generalizing s with
  | done x => exact bind_done splits first second
  | step effect next ih =>
      intro s' rely base
      rcases first s' (splits.rely_left rely) (splits.base_left base) with
        always | ⟨kept, rest⟩
      · exact .inl ((always.both_left [] b).mono fun _ excused => .inl excused)
      · have meanwhile := right.rely_trans (splits.rely_right rely) (splits.guarantee_left kept).2
        exact .inr ⟨(splits.guarantee_left kept).1, ih s' rest (second.of_rely meanwhile)⟩

/-- **Two tasks that take turns.**  If each of them guarantees what the other relies on, then
both secure what each of them does, whatever the order of turns. -/
theorem Secures.both (splits : Terms.Splits whole left right) (turns : List Turn)
    (first : a.Secures left excuseLeft postLeft s)
    (second : b.Secures right excuseRight postRight s) :
    (both turns a b).Secures whole (eitherExcused excuseLeft excuseRight)
      (bothHold postLeft postRight) s := by
  induction turns generalizing a b s with
  | nil => exact both_nil splits first second
  | cons turn turns ih =>
      cases turn with
      | left =>
          cases a with
          | done x => exact ih first second
          | step effect next =>
              intro s' rely base
              rcases first s' (splits.rely_left rely) (splits.base_left base) with
                always | ⟨kept, rest⟩
              · exact .inl ((always.both_left turns b).mono fun _ excused => .inl excused)
              · have meanwhile :=
                  right.rely_trans (splits.rely_right rely) (splits.guarantee_left kept).2
                exact .inr ⟨(splits.guarantee_left kept).1, ih rest (second.of_rely meanwhile)⟩
      | right =>
          cases b with
          | done y => exact ih first second
          | step effect next =>
              intro s' rely base
              rcases second s' (splits.rely_right rely) (splits.base_right base) with
                always | ⟨kept, rest⟩
              · exact .inl ((always.both_right turns a).mono fun _ excused => .inr excused)
              · have meanwhile :=
                  left.rely_trans (splits.rely_left rely) (splits.guarantee_right kept).2
                exact .inr ⟨(splits.guarantee_right kept).1, ih (first.of_rely meanwhile) rest⟩

end Turns

end Task

/-! ## Actions -/

namespace Action

variable {α β : Type}

/-- An action that starts in `w` keeps its guarantee, and when it succeeds, ends with `post`,
unless it is excused. -/
def Secures (terms : Task.Terms World) (excuse : Except Failure α → Prop) (action : Action α)
    (post : α → World → Prop) (w : World) : Prop :=
  Task.Secures terms excuse (fun result w => ∀ a, result = .ok a → post a w) action.run w

/-- Every end of an action is of a kind, whatever others do. -/
def Always (kind : Except Failure α → Prop) (action : Action α) : Prop :=
  Task.Always kind action.run

/-- No end is excused. -/
def Never (_ : Except Failure α) : Prop := False

/-- A failure is excused, unless the terms are strict. -/
def Lapse (strict : Prop) (result : Except Failure α) : Prop :=
  ¬ strict ∧ ∃ failure, result = .error failure

section Rules

variable {terms : Task.Terms World} {excuse : Except Failure α → Prop}
  {post : α → World → Prop} {w : World}

theorem secures_pure {a : α} (lasts : terms.Lasts (post a) w) :
    Secures terms excuse (pure a) post w := by
  refine .inr (lasts.mono fun w' _ holds a' same => ?_)
  cases same
  exact holds

theorem secures_throw (failure : Failure) :
    Secures terms excuse (throw failure : Action α) post w :=
  .inr fun _ _ _ _ same => nomatch same

theorem secures_check {result : Except Failure α}
    (lasts : ∀ a, result = .ok a → terms.Lasts (post a) w) :
    Secures terms excuse (check result) post w :=
  .inr fun w' rely base a same => lasts a same w' rely base

/-- A single step. -/
theorem secures_step {f : World → Except Failure α × World}
    (keeps : ∀ w', terms.rely w w' → terms.base w' → excuse (f w').1 ∨
      (terms.guarantee w' (f w').2 ∧
        ∀ a, (f w').1 = .ok a → terms.Lasts (post a) (f w').2)) :
    Secures terms excuse (step f) post w := by
  intro w' rely base
  refine (keeps w' rely base).imp_right fun ⟨kept, lasts⟩ => ⟨kept, .inr ?_⟩
  exact fun w'' later base' a same => lasts a same w'' later base'

/-- An action and then another one.  What follows an excused end has to be excused. -/
theorem Secures.bind {excuse' : Except Failure β → Prop} {post' : β → World → Prop}
    {action : Action α} {next : α → Action β} (secures : Secures terms excuse action post w)
    (base : terms.base w)
    (excused : ∀ result, excuse result → Always excuse' (check result >>= next))
    (follows : ∀ a w, terms.base w → terms.Lasts (post a) w →
      Secures terms excuse' (next a) post' w) :
    Secures terms excuse' (action >>= next) post' w := by
  refine Task.Secures.bind secures base (fun result excuse => excused result excuse) ?_
  intro result w base lasts
  cases result with
  | ok a => exact follows a w base (lasts.mono fun _ _ holds => holds a rfl)
  | error failure => exact secures_throw failure

/-- An action of which no end is excused, and then another one. -/
theorem Secures.bind_never {excuse' : Except Failure β → Prop} {post' : β → World → Prop}
    {action : Action α} {next : α → Action β} (secures : Secures terms Never action post w)
    (base : terms.base w)
    (follows : ∀ a w, terms.base w → terms.Lasts (post a) w →
      Secures terms excuse' (next a) post' w) :
    Secures terms excuse' (action >>= next) post' w :=
  secures.bind base (fun _ never => never.elim) follows

/-- An action and then another one, if failures are excused alike. -/
theorem Secures.bind_lapse {strict : Prop} {post' : β → World → Prop} {action : Action α}
    {next : α → Action β} (secures : Secures terms (Lapse strict) action post w)
    (base : terms.base w)
    (follows : ∀ a w, terms.base w → terms.Lasts (post a) w →
      Secures terms (Lapse strict) (next a) post' w) :
    Secures terms (Lapse strict) (action >>= next) post' w := by
  refine secures.bind base ?_ follows
  rintro result ⟨loose, failure, rfl⟩
  exact ⟨loose, failure, rfl⟩

theorem Secures.mono {goal : α → World → Prop} {action : Action α}
    (secures : Secures terms excuse action post w)
    (implies : ∀ a w, terms.base w → post a w → goal a w) :
    Secures terms excuse action goal w :=
  Task.Secures.mono secures fun _ w base holds a same => implies a w base (holds a same)

/-- An attempt secures for a success what the action does. -/
theorem Secures.attempt {action : Action α} (secures : Secures terms excuse action post w)
    (base : terms.base w) :
    Secures terms (fun result => ∃ outcome, result = .ok outcome ∧ excuse outcome)
      (Action.attempt action) (fun outcome w => ∀ a, outcome = .ok a → post a w) w := by
  refine Task.Secures.bind secures base (fun outcome excuse => ⟨outcome, rfl, excuse⟩) ?_
  exact fun outcome w base lasts => secures_pure lasts

/-- Files that stay only after a success may be discarded, if the terms allow it. -/
theorem Secures.keeping {files : Provisional} {action : Action α}
    (secures : Secures terms excuse action post w) (base : terms.base w)
    (discards : ∀ w, terms.base w →
      terms.guarantee w { w with disk := (files.discard w.disk).2 }) :
    Secures terms excuse (Action.keeping files action) post w := by
  refine (secures.attempt base).bind base ?_ ?_
  · rintro result ⟨outcome, rfl, excused⟩
    cases outcome with
    | ok a => exact excused
    | error failure => exact fun _ => excused
  · intro outcome w base lasts
    cases outcome with
    | ok a => exact secures_pure (lasts.mono fun w' _ holds => holds a rfl)
    | error failure =>
        have discarded : Secures terms Never (discard files) (fun _ _ => True) w :=
          secures_step fun w' _ base' => .inr ⟨discards w' base', fun _ _ _ _ _ => trivial⟩
        exact discarded.bind_never base fun _ w' _ _ => secures_throw failure

/-- Two actions that take turns secure for each success what the action does. -/
theorem Secures.together {whole left right : Task.Terms World}
    {excuse' : Except Failure β → Prop} {post' : β → World → Prop} {a : Action α} {b : Action β}
    (splits : Task.Terms.Splits whole left right) (turns : List Turn)
    (first : Secures left excuse a post w) (second : Secures right excuse' b post' w)
    (base : whole.base w) :
    Secures whole
      (fun result => ∃ outcomes, result = .ok outcomes ∧ Task.eitherExcused excuse excuse' outcomes)
      (Action.together turns a b)
      (fun outcomes w => (∀ x, outcomes.1 = .ok x → post x w) ∧
        ∀ y, outcomes.2 = .ok y → post' y w) w := by
  refine Task.Secures.bind (Task.Secures.both splits turns first second) base
    (fun outcomes excuse => ⟨outcomes, rfl, excuse⟩) ?_
  exact fun outcomes w base lasts => secures_pure lasts

/-- An action by itself. -/
theorem Secures.perform {action : Action α} (secures : Secures terms excuse action post w)
    (base : terms.base w) :
    excuse (Action.perform action w).1 ∨
      (terms.base (Action.perform action w).2 ∧
        ∀ a, (Action.perform action w).1 = .ok a → post a (Action.perform action w).2) :=
  Task.Secures.run secures base

end Rules

end Action

end Slidecast
