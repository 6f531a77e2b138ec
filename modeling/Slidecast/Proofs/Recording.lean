import Slidecast.Proofs.Posting

/-!
# Records of tasks that take turns

While two tasks take turns, it can be recorded what comes of every step, with the name of the party
that has taken it.  The record changes nothing of what is done (`Task.run_both_recorded`).

If the notices to somebody who watches the board are recorded, there is a row of posts that explains
the record, and to which each party has contributed what its task tells (`Task.Tells.heard`).
-/

set_option autoImplicit false

namespace Slidecast

open Files Progress

namespace Task

section Recorded

variable {σ ε α β : Type}

/-- A task beside whose state a record is kept of what is seen of each step. -/
def recorded (seen : σ → σ → List ε) (who : Turn) : Task σ α → Task (σ × List (Turn × ε)) α
  | .done a => .done a
  | .step effect next =>
      .step (fun (s, record) => (effect s, record ++ (seen s (effect s)).map (Prod.mk who)))
        fun (s, _) => (next s).recorded seen who

variable (seen : σ → σ → List ε)

/-- A record changes nothing of what is done. -/
theorem run_recorded (who : Turn) (t : Task σ α) (s : σ) (record : List (Turn × ε)) :
    ∃ full, (t.recorded seen who).run (s, record) = ((t.run s).1, (t.run s).2, full) := by
  induction t generalizing s record with
  | done a => exact ⟨record, rfl⟩
  | step effect next ih => exact ih s (effect s) _

theorem run_both_nil (a : Task σ α) (b : Task σ β) (s : σ) :
    (both [] a b).run s =
      (((a.run s).1, (b.run (a.run s).2).1), (b.run (a.run s).2).2) := by
  show (a.bind fun x => b.bind fun y => .done (x, y)).run s = _
  rw [run_bind, run_bind]
  rfl

/-- A record changes nothing of what is done in turns. -/
theorem run_both_recorded (turns : List Turn) (a : Task σ α) (b : Task σ β) (s : σ)
    (record : List (Turn × ε)) :
    ∃ full, (both turns (a.recorded seen .left) (b.recorded seen .right)).run (s, record) =
      (((both turns a b).run s).1, ((both turns a b).run s).2, full) := by
  induction turns generalizing a b s record with
  | nil =>
      obtain ⟨first, ran⟩ := run_recorded seen .left a s record
      obtain ⟨second, ran'⟩ := run_recorded seen .right b (a.run s).2 first
      refine ⟨second, ?_⟩
      rw [run_both_nil, run_both_nil, ran, ran']
  | cons turn turns ih =>
      cases turn with
      | left =>
          cases a with
          | done x => exact ih (.done x) b s record
          | step effect next => exact ih (next s) b (effect s) _
      | right =>
          cases b with
          | done y => exact ih a (.done y) s record
          | step effect next => exact ih a (next s) (effect s) _

end Recorded

/-! ## What is heard -/

/-- The notices that an observer receives between two moments. -/
def newly (seat : Nat) (w w' : World) : List Notice :=
  (w'.board.received seat).drop (w.board.received seat).length

/-- What is told by a row of posts of two parties. -/
def toldBy (done : List Stage) : List (Turn × Post) → List (Turn × Notice)
  | [] => []
  | (who, post) :: row =>
      (post.notice? done).toList.map (Prod.mk who) ++ toldBy (post.next done) row

theorem toldBy_append (done : List Stage) (front back : List (Turn × Post)) :
    toldBy done (front ++ back) =
      toldBy done front ++ toldBy (doneAfter done (front.map Prod.snd)) back := by
  induction front generalizing done with
  | nil => rfl
  | cons entry front ih =>
      simp only [List.cons_append, toldBy, ih, List.append_assoc, List.map_cons, doneAfter_cons]

theorem toldBy_map (who : Turn) (done : List Stage) (posts : List Post) :
    toldBy done (posts.map (Prod.mk who)) = (told done posts).map (Prod.mk who) := by
  induction posts generalizing done with
  | nil => rfl
  | cons post posts ih => simp only [List.map_cons, toldBy, ih, told, List.map_append]

theorem map_snd_toldBy (done : List Stage) (row : List (Turn × Post)) :
    (toldBy done row).map Prod.snd = told done (row.map Prod.snd) := by
  induction row generalizing done with
  | nil => rfl
  | cons entry row ih => rw [toldBy, List.map_append, map_snd_own, ih, List.map_cons, told]

section Heard

variable {α β : Type} {seat : Nat} {w w' : World}

/-- What one party posts between two moments, and then a row of posts of both. -/
theorem explained {posts : List Post} (who : Turn) (watched : w.board.Watches seat)
    (posted : w'.board = w.board.after posts) (row : List (Turn × Post)) :
    w'.board.after (row.map Prod.snd) =
        w.board.after ((posts.map (Prod.mk who) ++ row).map Prod.snd) ∧
      (newly seat w w').map (Prod.mk who) ++ toldBy w'.board.done row =
        toldBy w.board.done (posts.map (Prod.mk who) ++ row) := by
  obtain ⟨_, done, received⟩ := watched.after posts
  rw [map_snd_own_append, Board.after_append, toldBy_append, map_snd_own, toldBy_map, newly, posted,
    received, done, List.drop_left]
  exact ⟨rfl, rfl⟩

/-- What is heard of a task by itself. -/
theorem Tells.heard {claim : List Post → α → Prop} {t : Task World α} (tells : t.Tells claim)
    (who : Turn) (watched : w.board.Watches seat) (record : List (Turn × Notice)) :
    ∃ posts, (t.run w).2.board = w.board.after posts ∧ claim posts (t.run w).1 ∧
      (t.recorded (newly seat) who).run (w, record) = ((t.run w).1, (t.run w).2,
        record ++ toldBy w.board.done (posts.map (Prod.mk who))) := by
  induction t generalizing claim w record with
  | done a => exact ⟨[], rfl, tells, by rw [List.map_nil, toldBy, List.append_nil]; rfl⟩
  | step effect next ih =>
      obtain ⟨posts, posted, rest⟩ := tells w
      have watches : (effect w).board.Watches seat := posted ▸ (watched.after posts).1
      obtain ⟨later, ended, holds, heard⟩ := ih w rest watches
        (record ++ (newly seat w (effect w)).map (Prod.mk who))
      obtain ⟨boards, notices⟩ := explained who watched posted (later.map (Prod.mk who))
      refine ⟨posts ++ later, ?_, holds, ?_⟩
      · rw [Board.after_append, ← posted]
        exact ended
      · rw [List.map_append, ← notices, ← List.append_assoc]
        exact heard

/-- **What is heard of two tasks that take turns** is what their posts tell, in one row of which each
party has contributed its own. -/
theorem Tells.heard_both {left : List Post → α → Prop} {right : List Post → β → Prop}
    {a : Task World α} {b : Task World β} (turns : List Turn) (first : a.Tells left)
    (second : b.Tells right) (watched : w.board.Watches seat) (record : List (Turn × Notice)) :
    ∃ row, ((Task.both turns a b).run w).2.board = w.board.after (row.map Prod.snd) ∧
      left (partOf .left row) ((Task.both turns a b).run w).1.1 ∧
      right (partOf .right row) ((Task.both turns a b).run w).1.2 ∧
      ((Task.both turns (a.recorded (newly seat) .left) (b.recorded (newly seat) .right)).run
        (w, record)).2.2 = record ++ toldBy w.board.done row := by
  induction turns generalizing a b left right w record with
  | nil =>
      obtain ⟨posts, posted, holds, heard⟩ := first.heard .left watched record
      have watches : (a.run w).2.board.Watches seat := posted ▸ (watched.after posts).1
      obtain ⟨later, ended, holds', heard'⟩ := second.heard .right watches
        (record ++ toldBy w.board.done (posts.map (Prod.mk .left)))
      refine ⟨posts.map (Prod.mk .left) ++ later.map (Prod.mk .right), ?_, ?_, ?_, ?_⟩
      · rw [run_both_nil, map_snd_own_append, map_snd_own, Board.after_append, ← posted]
        exact ended
      · rw [run_both_nil, partOf_own_append, partOf_map_other (by decide), List.append_nil]
        exact holds
      · rw [run_both_nil, partOf_other_append (by decide), partOf_map_self]
        exact holds'
      · rw [run_both_nil, heard, heard', toldBy_append, map_snd_own, ← (watched.after posts).2.1,
          ← posted, List.append_assoc]
  | cons turn turns ih =>
      cases turn with
      | left =>
          cases a with
          | done x => exact ih first second watched record
          | step effect next =>
              obtain ⟨posts, posted, rest⟩ := first w
              have watches : (effect w).board.Watches seat := posted ▸ (watched.after posts).1
              obtain ⟨row, ended, holds, holds', heard⟩ := ih rest second watches
                (record ++ (newly seat w (effect w)).map (Prod.mk .left))
              obtain ⟨boards, notices⟩ := explained .left watched posted row
              refine ⟨posts.map (Prod.mk .left) ++ row, ended.trans boards, ?_, ?_, ?_⟩
              · rw [partOf_own_append]
                exact holds
              · rw [partOf_other_append (by decide)]
                exact holds'
              · rw [← notices, ← List.append_assoc]
                exact heard
      | right =>
          cases b with
          | done y => exact ih first second watched record
          | step effect next =>
              obtain ⟨posts, posted, rest⟩ := second w
              have watches : (effect w).board.Watches seat := posted ▸ (watched.after posts).1
              obtain ⟨row, ended, holds, holds', heard⟩ := ih first rest watches
                (record ++ (newly seat w (effect w)).map (Prod.mk .right))
              obtain ⟨boards, notices⟩ := explained .right watched posted row
              refine ⟨posts.map (Prod.mk .right) ++ row, ended.trans boards, ?_, ?_, ?_⟩
              · rw [partOf_other_append (by decide)]
                exact holds
              · rw [partOf_own_append]
                exact holds'
              · rw [← notices, ← List.append_assoc]
                exact heard

end Heard

end Task

end Slidecast
