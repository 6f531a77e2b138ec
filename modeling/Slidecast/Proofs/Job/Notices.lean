import Slidecast.Proofs.Job.Posts
import Slidecast.Proofs.Job.Success
import Slidecast.Proofs.Progress.Finished

/-!
# What is told of a job

Whoever watches the board is told of every stage of a job that succeeds, once that it starts and
once that it is completed, however the branches take turns, and whatever earlier jobs have left
completed (`told_of_success`).  The totals start at nothing, never fall, and end at a hundred.
-/

set_option autoImplicit false

namespace Slidecast.Job

open Files Number Progress

/-! ## Notices with honest totals -/

/-- Every total is the share of the stages that are finished by then. -/
def Honest (notices : List Notice) : Prop :=
  ∀ i, (inside : i < notices.length) →
    notices[i].totalPercent = percentDone (finished (notices.take (i + 1)))

namespace Honest

variable {notices : List Notice}

theorem grows (honest : Honest notices) :
    notices.Pairwise fun earlier later => earlier.totalPercent ≤ later.totalPercent := by
  rw [List.pairwise_iff_getElem]
  intro i j insideFirst inside before
  rw [honest i insideFirst, honest j inside]
  refine percentDone_le nodup_finished nodup_finished (finished_mono ?_)
  exact (List.take_prefix_take_left (by omega)).subset

theorem ends_whole (honest : Honest notices) (all : ∀ stage, stage ∈ finished notices) :
    ∀ last ∈ notices.getLast?, last.totalPercent = 100 := by
  intro last isLast
  obtain ⟨filled, rfl⟩ := List.mem_getLast?_eq_getLast isLast
  have positive := List.length_pos_of_ne_nil filled
  rw [List.getLast_eq_getElem, honest _ (by omega),
    List.take_of_length_le (by omega), percentDone_eq_hundred_iff nodup_finished]
  exact all

theorem starts_at_nothing (honest : Honest notices) (starts : ∀ first ∈ notices.head?,
    first.stepPercent ≠ 100) : ∀ first ∈ notices.head?, first.totalPercent.toRat = 0 := by
  intro first isFirst
  cases notices with
  | nil => simp at isFirst
  | cons head notices =>
      obtain rfl : head = first := by simpa using isFirst
      have unfinished : finished [head] = [] := by
        rw [List.eq_nil_iff_forall_not_mem]
        intro stage done
        have marked : (stage.title, 100) = head.mark := by simpa using mem_finished_iff.1 done
        exact starts head isFirst (congrArg Prod.snd marked).symm
      have total := honest 0 (Nat.zero_lt_succ _)
      rw [List.getElem_cons_zero, List.take_succ_cons, List.take_zero, unfinished] at total
      rw [total, percentDone_nil]

end Honest

/-! ## The account of a job -/

/-- What is told of a job that succeeds. -/
structure Account (notices : List Notice) : Prop where
  ten : notices.length = 10
  /-- Every stage starts and is completed, in this order, and nothing else is said about it. -/
  once : ∀ stage, marksOf [stage] notices = [(stage.title, 0), (stage.title, 100)]
  transcriptFirst : (notices.take 2).map Notice.mark =
    [(Stage.transcript.title, 0), (Stage.transcript.title, 100)]
  picturesBeforePlaylist : marksOf [.pictures, .playlist] notices =
    [(Stage.pictures.title, 0), (Stage.pictures.title, 100),
      (Stage.playlist.title, 0), (Stage.playlist.title, 100)]
  honest : Honest notices
  /-- Single precision shows a share that is off by less than a hundred-thousandth. -/
  near : ∀ i, (inside : i < notices.length) →
    |notices[i].totalPercent.toRat - shareOf (finished (notices.take (i + 1)))| ≤ 1 / 100000
  startsAtNothing : ∀ first ∈ notices.head?, first.totalPercent.toRat = 0
  grows : notices.Pairwise fun earlier later => earlier.totalPercent ≤ later.totalPercent
  endsWhole : ∀ last ∈ notices.getLast?, last.totalPercent = 100

theorem honest_told {posts : List Post} (noReset : .reset ∉ posts) : Honest (told [] posts) := by
  intro i inside
  have split : told [] posts =
      (told [] posts).take i ++ (told [] posts)[i] :: (told [] posts).drop (i + 1) := by
    rw [List.getElem_cons_drop, List.take_append_drop]
  rw [totalPercent_told noReset split, List.take_append_getElem]

/-- **What is told of a job by its posts.** -/
theorem Course.account {posts : List Post} (course : Course posts) :
    Account (told [] posts) := by
  have honest := honest_told course.noReset
  have once : ∀ stage, marksOf [stage] (told [] posts) =
      [(stage.title, 0), (stage.title, 100)] := by
    intro stage
    obtain ⟨details, own⟩ := course.each stage
    rw [marksOf_told, own]
    rfl
  have all : ∀ stage, stage ∈ finished (told [] posts) := by
    intro stage
    have among : (stage.title, 100) ∈ marksOf [stage] (told [] posts) := by simp [once]
    exact mem_finished_iff.2 (List.mem_filter.1 among).1
  have transcriptFirst : ((told [] posts).take 2).map Notice.mark =
      [(Stage.transcript.title, 0), (Stage.transcript.title, 100)] := by
    obtain ⟨details, rest, rfl, _⟩ := course
    rw [List.map_take, map_told]
    rfl
  exact
    { ten := (length_told course.noReset).trans course.length
      once := once
      transcriptFirst := transcriptFirst
      picturesBeforePlaylist := by
        obtain ⟨details, details', visuals⟩ := course.visuals
        rw [marksOf_told, visuals]
        rfl
      honest := honest
      near := by
        intro i inside
        rw [honest i inside]
        exact abs_toRat_percentDone_sub_le nodup_finished
      startsAtNothing := by
        refine honest.starts_at_nothing fun first isFirst => ?_
        have opening : (told [] posts).head?.map Notice.mark = some (Stage.transcript.title, 0) := by
          simpa [List.head?_take] using congrArg List.head? transcriptFirst
        rw [isFirst] at opening
        have zero : first.stepPercent = 0 := congrArg Prod.snd (Option.some.inj opening)
        rw [zero]
        decide +kernel
      grows := honest.grows
      endsWhole := honest.ends_whole all }

/-- Whoever watches the board still does after a job, however it has ended. -/
theorem watches_process {settings : Settings} {toolbox : Toolbox} {order : Order}
    {schedule : Schedule} {w : World} {seat : Nat} (watched : w.board.Watches seat) :
    (Action.perform (process settings toolbox order schedule) w).2.board.Watches seat := by
  obtain ⟨posts, posted, _⟩ := (tells_process settings toolbox order schedule).perform w
  rw [posted]
  exact (watched.after posts).1

/-- **Whoever watches is told of the whole job**, if it succeeds: whatever earlier jobs have left on
the board, and however the branches take turns. -/
theorem told_of_success (settings : Settings) (toolbox : Toolbox) (order : Order)
    (schedule : Schedule) (w w' : World) (made : Deliverables) (seat : Nat)
    (watched : w.board.Watches seat)
    (succeeded : Action.perform (process settings toolbox order schedule) w = (.ok made, w')) :
    w'.board.Watches seat ∧ ∃ notices,
      w'.board.received seat = w.board.received seat ++ notices ∧ Account notices := by
  obtain ⟨posts, posted, course⟩ := (tells_process settings toolbox order schedule).perform w
  rw [succeeded] at posted course
  obtain ⟨rest, rfl, whole⟩ := course made rfl
  obtain ⟨watches, _, received⟩ := watched.after (.reset :: rest)
  rw [← posted] at watches received
  exact ⟨watches, told [] rest, received, whole.account⟩

/-- A job whose sound is a picture. -/
def mute : Order :=
  { reel with id := "job-0", project := { reel.project with sounds := [{ source := "one.png" }] } }

/-- The studio with somebody who watches. -/
def theatre : World :=
  { studio with board := ((({} : Board).setRoster {}).observe .memory).2 }

theorem watches_theatre : theatre.board.Watches 0 :=
  Board.watches_observe rfl (by simp) .memory

/-- A job fails when four stages are completed, and then another one is done. -/
theorem told_of_reel :
    let settings : Settings := { root := ⟨"out"⟩ }
    let schedule : Schedule :=
      { crew := { order := [1] }, subtitleTurns := [.right, .left], soundTurns := [.right, .left] }
    let earlier := (Action.perform (process settings scribe mute schedule) theatre).2
    earlier.board.done = [.transcript, .pictures, .playlist, .subtitles] ∧
      ∃ made w', Action.perform (process settings scribe reel schedule) earlier = (.ok made, w') ∧
        w'.board.Watches 0 ∧ ∃ notices,
          w'.board.received 0 = earlier.board.received 0 ++ notices ∧ Account notices := by
  intro settings schedule earlier
  have runs : earlier.board.done = [.transcript, .pictures, .playlist, .subtitles] ∧
      (Action.perform (process settings scribe reel schedule) earlier).1.isOk = true := by
    decide +kernel
  obtain ⟨left, run⟩ := runs
  refine ⟨left, ?_⟩
  cases ended : Action.perform (process settings scribe reel schedule) earlier with
  | mk outcome w' =>
      rw [ended] at run
      cases outcome with
      | error failure => cases run
      | ok made =>
          exact ⟨made, w', rfl, told_of_success settings scribe reel schedule earlier w' made 0
            (watches_process watches_theatre) ended⟩

end Slidecast.Job
