import Mathlib.Data.List.DropRight
import Slidecast.Proofs.Progress.Told

/-!
# The total of a board

Five things can be done to a board that tracks progress: it gets a roster, an observer joins, a stage
starts or is completed, or everything is reset.  Each of these moves changes the completed stages in
one way, whatever roster there is (`Board.exists_tracker_play`), so after a row of moves exactly those
are completed that were so behind the last reset (`mem_stagesAfter_iff`).

The total tells the share of these stages, however often and in which order they were completed; it
grows until the next reset; and what observers are told has the total of that moment in it
(`Board.total_follows`).
-/

set_option autoImplicit false

namespace Slidecast.Progress

open Number

/-! ## Moves -/

/-- What can be done to a board. -/
inductive Move where
  | setRoster (roster : Roster)
  | observe (kind : ObserverKind)
  | start (stage : Stage)
  | complete (stage : Stage) (details : Option String)
  | reset
  deriving DecidableEq

namespace Move

/-- The completed stages after a move. -/
def next (done : List Stage) : Move → List Stage
  | .complete stage _ => withStage done stage
  | .reset => []
  | _ => done

/-- The stage that a move completes, if it does. -/
def completes? : Move → Option Stage
  | .complete stage _ => some stage
  | _ => none

/-- Whether a move has to do with what is completed. -/
def isDeed : Move → Bool
  | .complete _ _ => true
  | .reset => true
  | _ => false

/-- What an observer is told of a move that it is told of so many times, with the given total. -/
def notices (total : Single) (times : Nat) : Move → List Notice
  | .start stage => List.replicate times ⟨stage.title, 0, total, none⟩
  | .complete stage details => List.replicate times ⟨stage.title, 100, total, details⟩
  | _ => []

theorem nodup_next {done : List Stage} (once : done.Nodup) (move : Move) :
    (move.next done).Nodup := by
  cases move with
  | setRoster roster => exact once
  | observe kind => exact once
  | start stage => exact once
  | complete stage details => exact nodup_withStage once stage
  | reset => exact List.nodup_nil

theorem subset_next {done : List Stage} {move : Move} (noReset : move ≠ .reset) :
    done ⊆ move.next done := by
  intro stage member
  cases move with
  | setRoster roster => exact member
  | observe kind => exact member
  | start other => exact member
  | complete other details => exact mem_withStage.2 (.inl member)
  | reset => exact absurd rfl noReset

end Move

/-- The completed stages after a row of moves. -/
def stagesAfter (done : List Stage) (moves : List Move) : List Stage := moves.foldl Move.next done

/-- The moves behind the last reset. -/
def sinceReset (moves : List Move) : List Move := moves.rtakeWhile (· ≠ .reset)

/-- The stages that are completed in a row of moves, as often as they are. -/
def completions (moves : List Move) : List Stage := moves.filterMap Move.completes?

section Rows

variable {done : List Stage} {moves : List Move} {stage : Stage}

theorem nodup_stagesAfter (once : done.Nodup) : (stagesAfter done moves).Nodup := by
  induction moves generalizing done with
  | nil => exact once
  | cons move moves ih => exact ih (move.nodup_next once)

theorem subset_stagesAfter (noReset : .reset ∉ moves) : done ⊆ stagesAfter done moves := by
  induction moves generalizing done with
  | nil => exact List.Subset.refl done
  | cons move moves ih =>
      rw [List.mem_cons, not_or] at noReset
      exact List.Subset.trans (Move.subset_next (Ne.symm noReset.1)) (ih noReset.2)

/-- **The completed stages are those that were completed since the last reset.** -/
theorem mem_stagesAfter_iff :
    stage ∈ stagesAfter [] moves ↔ stage ∈ completions (sinceReset moves) := by
  induction moves using List.reverseRecOn with
  | nil => rfl
  | append_singleton moves move ih =>
      have last : stagesAfter [] (moves ++ [move]) = move.next (stagesAfter [] moves) :=
        List.foldl_append
      by_cases isReset : move = .reset
      · have cleared : sinceReset (moves ++ [move]) = [] :=
          List.rtakeWhile_concat_neg _ _ _ (by simp [isReset])
        rw [last, cleared, isReset]
        rfl
      · have more : sinceReset (moves ++ [move]) = sinceReset moves ++ [move] :=
          List.rtakeWhile_concat_pos _ _ _ (by simp [isReset])
        rw [last, more, completions, List.filterMap_append, List.mem_append]
        change _ ↔ stage ∈ completions (sinceReset moves) ∨ _
        rw [← ih]
        cases move with
        | setRoster roster => simp [Move.next, Move.completes?]
        | observe kind => simp [Move.next, Move.completes?]
        | start other => simp [Move.next, Move.completes?]
        | complete other details => simp [Move.next, Move.completes?, mem_withStage]
        | reset => exact absurd rfl isReset

/-- Only deeds have an effect on the stages. -/
theorem stagesAfter_filter (moves : List Move) :
    stagesAfter done (moves.filter Move.isDeed) = stagesAfter done moves := by
  induction moves generalizing done with
  | nil => rfl
  | cons move moves ih =>
      cases move with
      | setRoster roster => exact ih
      | observe kind => exact ih
      | start other => exact ih
      | complete other details => exact ih
      | reset => exact ih

end Rows

/-! ## Boards -/

namespace Board

/-- The board after a move. -/
def play (b : Board) : Move → Board
  | .setRoster roster => b.setRoster roster
  | .observe kind => (b.observe kind).2
  | .start stage => b.start stage
  | .complete stage details => b.complete stage details
  | .reset => b.reset

/-- The board after a row of moves. -/
def plays (b : Board) (moves : List Move) : Board := moves.foldl play b

/-- How much is done, in percent. -/
def total (b : Board) : Single := (b.tracker.getD {}).percent

variable {b : Board} {roster : Option Roster} {completed : List Stage}

theorem done_of_tracker (tracked : b.tracker = some ⟨roster, completed⟩) : b.done = completed := by
  rw [done, tracked]
  rfl

theorem total_of_tracker (tracked : b.tracker = some ⟨roster, completed⟩) :
    b.total = percentDone completed := by
  rw [total, tracked]
  rfl

/-- **A move changes the completed stages** without regard to the roster. -/
theorem exists_tracker_play (tracked : b.tracker = some ⟨roster, completed⟩) (move : Move) :
    ∃ roster', (b.play move).tracker = some ⟨roster', move.next completed⟩ := by
  obtain ⟨tracker, audience⟩ := b
  cases tracked
  cases move with
  | setRoster roster' => exact ⟨some roster', rfl⟩
  | observe kind =>
      cases roster with
      | none => exact ⟨none, rfl⟩
      | some roster => exact ⟨some (roster.add audience.length).2, rfl⟩
  | start stage => exact ⟨roster, rfl⟩
  | complete stage details => exact ⟨roster, rfl⟩
  | reset => exact ⟨roster, rfl⟩

theorem exists_tracker_plays (tracked : b.tracker = some ⟨roster, completed⟩)
    (moves : List Move) :
    ∃ roster', (b.plays moves).tracker = some ⟨roster', stagesAfter completed moves⟩ := by
  induction moves generalizing b roster completed with
  | nil => exact ⟨roster, tracked⟩
  | cons move moves ih =>
      obtain ⟨roster', next⟩ := exists_tracker_play tracked move
      exact ih next

/-! ## What is told of a move -/

section Told

variable {t : Tracker} {stage : Stage} {details : Option String}

theorem notice_start (once : t.completed.Nodup) :
    t.notice stage 0 none = ⟨stage.title, 0, percentDone t.completed, none⟩ := by
  unfold Tracker.notice Notice.clamped Tracker.percent
  rw [stepPercent_zero, clamp_percentDone once]

theorem notice_complete (once : t.completed.Nodup) :
    t.notice stage 100 details = ⟨stage.title, 100, percentDone t.completed, details⟩ := by
  unfold Tracker.notice Notice.clamped Tracker.percent
  rw [stepPercent_hundred, clamp_percentDone once]

/-- Who joins has received nothing, and nobody loses anything by it. -/
theorem received_observe (b : Board) (kind : ObserverKind) (seat : Nat) :
    (b.observe kind).2.received seat = b.received seat := by
  have audience : (b.observe kind).2.audience = b.audience ++ [{ kind := kind }] := by
    unfold observe
    dsimp only
    split <;> rfl
  unfold received
  rw [audience, List.getElem?_append]
  split
  · rfl
  · next behind =>
      rw [List.getElem?_eq_none (not_lt.1 behind)]
      cases seat - b.audience.length <;> rfl

/-- **What is told of a move has the total after it**, and is told once for each registration. -/
theorem received_play (tracked : b.tracker = some ⟨roster, completed⟩) (once : completed.Nodup)
    (move : Move) (seat : Nat) :
    (b.play move).received seat =
      b.received seat ++ move.notices (b.play move).total (b.registrations seat) := by
  obtain ⟨tracker, audience⟩ := b
  cases tracked
  cases move with
  | setRoster roster' => exact (List.append_nil _).symm
  | observe kind => exact (received_observe _ kind seat).trans (List.append_nil _).symm
  | start stage =>
      have told := received_of_report ⟨roster, completed⟩ audience stage 0 none seat
      rw [notice_start once] at told
      exact told
  | complete stage details =>
      have told := received_of_report ⟨roster, withStage completed stage⟩ audience stage 100 details
        seat
      rw [notice_complete (nodup_withStage once stage)] at told
      exact told
  | reset => exact (List.append_nil _).symm

end Told

end Board

/-! ## Totals -/

/-- The total of a board tells that some stages are completed, no matter how often they are listed:
it is computed from them in any order, and is their share but for its rounding. -/
structure Shows (stages : List Stage) (b : Board) : Prop where
  completed : ∀ stage, stage ∈ b.done ↔ stage ∈ stages
  finite : b.total.isFinite = true
  sums : ∀ row : List Stage, row.Nodup → (∀ stage, stage ∈ row ↔ stage ∈ stages) →
    b.total = percentDone row ∧ |b.total.toRat - shareOf row| ≤ 1 / 100000
  whole : b.total = 100 ↔ ∀ stage, stage ∈ stages
  nothing : b.total.toRat = 0 ↔ stages = []

theorem shows_of_done {stages : List Stage} {b : Board} {roster : Option Roster}
    {completed : List Stage} (tracked : b.tracker = some ⟨roster, completed⟩)
    (once : completed.Nodup) (same : ∀ stage, stage ∈ completed ↔ stage ∈ stages) :
    Shows stages b := by
  have total := Board.total_of_tracker tracked
  constructor
  · rwa [Board.done_of_tracker tracked]
  · rw [total]
    exact isFinite_percentDone once
  · intro row onceRow sameRow
    have perm : completed.Perm row :=
      (List.perm_ext_iff_of_nodup once onceRow).2 fun stage =>
        (same stage).trans (sameRow stage).symm
    have shown : b.total = percentDone row := total.trans (percentDone_perm once perm)
    refine ⟨shown, ?_⟩
    rw [shown]
    exact abs_toRat_percentDone_sub_le onceRow
  · rw [total, percentDone_eq_hundred_iff once]
    exact forall_congr' same
  · rw [total, toRat_percentDone_eq_zero_iff once, List.eq_nil_iff_forall_not_mem,
      List.eq_nil_iff_forall_not_mem]
    exact forall_congr' fun stage => not_congr (same stage)

/-- **The total follows what is completed.**  After any row of moves on a new board, with a roster or
without, it shows the stages that were completed since the last reset; it does not become less before
the next reset; everybody who is told of another move is told the total behind it; and without the
moves that are no deeds, or with others of them, the same stages are completed. -/
theorem Board.total_follows (roster : Option Roster) (audience : Audience) (moves : List Move) :
    let b := Board.plays ⟨some ⟨roster, []⟩, audience⟩ moves
    Shows (completions (sinceReset moves)) b ∧
      (∀ more, .reset ∉ more → b.total ≤ (b.plays more).total) ∧
      (∀ move seat, (b.play move).received seat =
        b.received seat ++ move.notices (b.play move).total (b.registrations seat)) ∧
      ∀ roster' audience' others, others.filter Move.isDeed = moves.filter Move.isDeed →
        (Board.plays ⟨some ⟨roster', []⟩, audience'⟩ others).done = b.done := by
  intro b
  have start : (⟨some ⟨roster, []⟩, audience⟩ : Board).tracker = some ⟨roster, []⟩ := rfl
  obtain ⟨roster₁, tracked⟩ := Board.exists_tracker_plays start moves
  have once : (stagesAfter [] moves).Nodup := nodup_stagesAfter List.nodup_nil
  refine ⟨shows_of_done tracked once fun stage => mem_stagesAfter_iff, ?_, ?_, ?_⟩
  · intro more noReset
    obtain ⟨roster₂, later⟩ := Board.exists_tracker_plays tracked more
    rw [Board.total_of_tracker tracked, Board.total_of_tracker later]
    exact percentDone_le once (nodup_stagesAfter once) (subset_stagesAfter noReset)
  · intro move seat
    exact Board.received_play tracked once move seat
  · intro roster' audience' others same
    have start' : (⟨some ⟨roster', []⟩, audience'⟩ : Board).tracker = some ⟨roster', []⟩ := rfl
    obtain ⟨roster₂, tracked'⟩ := Board.exists_tracker_plays start' others
    rw [Board.done_of_tracker tracked, Board.done_of_tracker tracked', ← stagesAfter_filter others,
      same, stagesAfter_filter]

/-- A stage that is completed twice counts once, whether anybody is told of it or not. -/
example : ((⟨some {}, []⟩ : Board).plays
    [.complete .pictures none, .complete .pictures none, .setRoster {}, .observe .memory,
      .complete .audio none]).total = 75 := by decide +kernel

end Slidecast.Progress
