import Slidecast.Proofs.Job.Notices
import Slidecast.Proofs.Recording

/-!
# Jobs at the same time

Jobs that run at the same time share the board, and each of them resets it when it begins.  Whatever
turns two jobs take, the last thing that is told of a job that succeeds is that a stage of it is
completed, and the total is a hundred exactly if every stage has been completed, by whichever job,
since the board was reset last (`last_total`).  So it is a hundred if the other job does not begin in
between; if it does, it can be less (`interrupted_total`).
-/

set_option autoImplicit false

namespace Slidecast

open Files Number Progress

/-! ## Rows of two parties -/

/-- What one party has contributed is found in the row, in the same order. -/
theorem partOf_eq_append_cons {ε : Type} {who : Turn} {row : List (Turn × ε)} {own later : List ε}
    {e : ε} (part : partOf who row = own ++ e :: later) :
    ∃ before after, row = before ++ (who, e) :: after ∧ partOf who before = own ∧
      partOf who after = later := by
  obtain ⟨first, second, split, rfl, rest⟩ := List.map_eq_append_iff.1 part
  obtain ⟨⟨turn, e⟩, last, rfl, rfl, rfl⟩ := List.map_eq_cons_iff.1 rest
  obtain ⟨before, behind, rfl, rfl, found⟩ := List.filter_eq_append_iff.1 split
  obtain ⟨skipped, after, rfl, others, own, rfl⟩ := List.filter_eq_cons_iff.1 found
  obtain rfl : turn = who := of_decide_eq_true own
  refine ⟨before ++ skipped, after, (List.append_assoc _ _ _).symm, ?_, rfl⟩
  rw [partOf_append, partOf, partOf, List.filter_eq_nil_iff.2 others, List.map_nil, List.append_nil]

namespace Progress

variable {done : List Stage} {posts : List Post}

theorem nodup_doneAfter_of_reset (reset : .reset ∈ posts) : (doneAfter done posts).Nodup := by
  obtain ⟨front, back, rfl⟩ := List.append_of_mem reset
  rw [doneAfter_append]
  have fresh : (doneAfter [] back).Nodup := nodup_doneAfter List.nodup_nil
  exact fresh

/-- After a reset, a hundred is shown exactly if every stage has been completed since. -/
theorem percentDone_doneAfter_iff (reset : .reset ∈ posts) :
    percentDone (doneAfter done posts) = 100 ↔ ∀ stage, CompletedSince stage posts := by
  rw [percentDone_eq_hundred_iff (nodup_doneAfter_of_reset reset)]
  refine forall_congr' fun stage => ?_
  rw [mem_doneAfter_iff]
  exact or_iff_left fun earlier => earlier.2 reset

end Progress

/-- Nothing is told by who posts nothing. -/
theorem Task.filter_toldBy {who : Turn} {row : List (Turn × Post)} (silent : partOf who row = [])
    (done : List Stage) : (toldBy done row).filter (·.1 = who) = [] := by
  induction row generalizing done with
  | nil => rfl
  | cons entry row ih =>
      obtain ⟨turn, post⟩ := entry
      have other : turn ≠ who := by
        rintro rfl
        rw [partOf_cons_self] at silent
        exact List.cons_ne_nil _ _ silent
      rw [partOf_cons_other other] at silent
      rw [toldBy, List.filter_append, ih silent, List.append_nil, List.filter_eq_nil_iff]
      rintro ⟨turn', notice⟩ among
      obtain ⟨_, _, same⟩ := List.mem_map.1 among
      obtain rfl : turn = turn' := congrArg Prod.fst same
      simpa using other

namespace Job

/-- The last post of a job that succeeds is that a stage is completed. -/
theorem Course.ends {posts : List Post} (course : Course posts) :
    ∃ front stage details, posts = front ++ [.complete stage details] := by
  rcases List.eq_nil_or_concat posts with rfl | ⟨front, last, rfl⟩
  · exact absurd course.length (by decide)
  · rw [List.concat_eq_append] at course ⊢
    cases last with
    | reset => exact absurd (List.mem_append_right front List.mem_cons_self) course.noReset
    | complete stage details => exact ⟨front, stage, details, rfl⟩
    | start stage =>
        -- the completion of a stage comes behind its start
        obtain ⟨details, own⟩ := course.each stage
        rw [List.filter_append, List.filter_singleton] at own
        have last := congrArg List.getLast? own
        simp [Post.isAbout, Post.stage?, postsOf] at last

/-- Every stage of a job that succeeds is completed. -/
theorem Course.complete_mem {posts : List Post} (course : Course posts) (stage : Stage) :
    ∃ details, .complete stage details ∈ posts := by
  obtain ⟨details, own⟩ := course.each stage
  have among : .complete stage details ∈ posts.filter (Post.isAbout [stage]) := by
    rw [own]
    exact List.mem_cons_of_mem _ List.mem_cons_self
  exact ⟨details, (List.mem_filter.1 among).1⟩

/-! ## Two jobs -/

/-- One of two things. -/
def pick {α : Type} (who : Turn) (both : α × α) : α :=
  match who with
  | .left => both.1
  | .right => both.2

section Pair

variable (settings : Settings) (toolbox : Toolbox) (orders : Turn → Order)
  (schedules : Turn → Schedule) (turns : List Turn) (w : World)

/-- How two jobs end that are done at the same time, and the world after them. -/
def processBoth : (Except Failure Deliverables × Except Failure Deliverables) × World :=
  (Task.both turns
    (process settings toolbox (orders .left) (schedules .left)).run
    (process settings toolbox (orders .right) (schedules .right)).run).run w

/-- The same with a record of what the observer at a seat is told, and by whom. -/
def recordedBoth (seat : Nat) : (Except Failure Deliverables × Except Failure Deliverables) ×
    World × List (Turn × Notice) :=
  (Task.both turns
    ((process settings toolbox (orders .left) (schedules .left)).run.recorded
      (Task.newly seat) .left)
    ((process settings toolbox (orders .right) (schedules .right)).run.recorded
      (Task.newly seat) .right)).run (w, [])

/-- What the observer at a seat is told of two jobs at the same time, and by whom. -/
def heardOfBoth (seat : Nat) : List (Turn × Notice) :=
  (recordedBoth settings toolbox orders schedules turns w seat).2.2

variable {settings toolbox orders schedules turns w} {seat : Nat}

/-- That it is recorded what is told changes nothing of what is done. -/
theorem recorded_processBoth (settings : Settings) (toolbox : Toolbox) (orders : Turn → Order)
    (schedules : Turn → Schedule) (turns : List Turn) (w : World) (seat : Nat) :
    recordedBoth settings toolbox orders schedules turns w seat =
      ((processBoth settings toolbox orders schedules turns w).1,
        (processBoth settings toolbox orders schedules turns w).2,
        heardOfBoth settings toolbox orders schedules turns w seat) := by
  obtain ⟨full, same⟩ := Task.run_both_recorded (Task.newly seat) turns
    (process settings toolbox (orders .left) (schedules .left)).run
    (process settings toolbox (orders .right) (schedules .right)).run w []
  rw [heardOfBoth, recordedBoth, same]
  rfl

/-- There is a history of posts behind what is told, with the whole course of each job that
succeeds. -/
theorem exists_history (watched : w.board.Watches seat) :
    ∃ history : List (Turn × Post),
      (processBoth settings toolbox orders schedules turns w).2.board =
        w.board.after (history.map Prod.snd) ∧
      heardOfBoth settings toolbox orders schedules turns w seat =
        Task.toldBy w.board.done history ∧
      ∀ who made, pick who (processBoth settings toolbox orders schedules turns w).1 = .ok made →
        ∃ rest, partOf who history = .reset :: rest ∧ Course rest := by
  obtain ⟨history, board, left, right, heard⟩ := Task.Tells.heard_both turns
    (tells_process settings toolbox (orders .left) (schedules .left))
    (tells_process settings toolbox (orders .right) (schedules .right)) watched []
  refine ⟨history, board, heard, fun who made succeeded => ?_⟩
  cases who with
  | left => exact left made succeeded
  | right => exact right made succeeded

/-- **What is told of two jobs** is what the observer receives while they are done. -/
theorem received_processBoth (watched : w.board.Watches seat) :
    (processBoth settings toolbox orders schedules turns w).2.board.received seat =
      w.board.received seat ++
        (heardOfBoth settings toolbox orders schedules turns w seat).map Prod.snd := by
  obtain ⟨history, board, heard, _⟩ := exists_history watched
  rw [board, heard, (watched.after _).2.2, Task.map_snd_toldBy]

/-- How a job ends among others: the history before and after its last post, by which a stage is
completed, and the notice of that. -/
structure Ending (who : Turn) (before after : List (Turn × Post)) (stage : Stage)
    (details : String) (last : Notice) : Prop where
  /-- Before it, the job has told of all but the completion of this stage. -/
  course : ∃ rest, partOf who before = .reset :: rest ∧ Course (rest ++ [.complete stage details])
  final : partOf who after = []
  step : last.step = stage.title
  stepPercent : last.stepPercent = 100
  /-- The total is a hundred exactly if every stage is completed since the last reset. -/
  total : last.totalPercent = 100 ↔
    ∀ other, CompletedSince other (before.map Prod.snd ++ [.complete stage details])
  /-- So it is if the board has not been reset since the job began. -/
  undisturbed : ∀ front middle, before = front ++ (who, .reset) :: middle →
    .reset ∉ middle.map Prod.snd → last.totalPercent = 100

/-- If the board has not been reset since a job began, every stage has been completed when the job
ends. -/
theorem completedSince_of_undisturbed {who : Turn} {front middle : List (Turn × Post)}
    {rest : List Post} {stage : Stage} {details : String}
    (part : partOf who (front ++ (who, .reset) :: middle) = .reset :: rest)
    (course : Course (rest ++ [.complete stage details]))
    (undisturbed : .reset ∉ middle.map Prod.snd) (other : Stage) :
    CompletedSince other ((front ++ (who, Post.reset) :: middle).map Prod.snd ++
      [.complete stage details]) := by
  -- the job resets only once, so all the rest of its posts are in the middle
  have own : partOf who middle = rest := by
    rw [partOf_append, partOf_cons_self] at part
    cases first : partOf who front with
    | nil =>
        rw [first] at part
        exact (List.cons.inj part).2
    | cons post posts =>
        rw [first] at part
        have again : Post.reset ∈ rest := by
          rw [← (List.cons.inj part).2]
          exact List.mem_append_right posts List.mem_cons_self
        exact absurd (List.mem_append_left _ again) course.noReset
  obtain ⟨details', among⟩ := course.complete_mem other
  have later : .complete other details' ∈ middle.map Prod.snd ++ [.complete stage details] := by
    rw [← own, List.mem_append] at among
    rcases among with among | among
    · obtain ⟨entry, member, same⟩ := List.mem_map.1 among
      exact List.mem_append_left _ (List.mem_map.2 ⟨entry, (List.mem_filter.1 member).1, same⟩)
    · exact List.mem_append_right _ among
  obtain ⟨before, behind, split⟩ := List.append_of_mem later
  refine ⟨front.map Prod.snd ++ .reset :: before, details', behind, ?_, fun again => ?_⟩
  · rw [List.map_append, List.map_cons, List.append_assoc, List.cons_append, split,
      List.append_assoc, List.cons_append]
  · have there : .reset ∈ middle.map Prod.snd ++ [.complete stage details] := by
      rw [split]
      exact List.mem_append_right _ (List.mem_cons_of_mem _ again)
    simp only [List.mem_append, List.mem_singleton, reduceCtorEq, or_false] at there
    exact undisturbed there

/-- **The last total of a job** among the notices of two jobs at the same time, whatever turns they
take. -/
theorem last_total (settings : Settings) (toolbox : Toolbox) (orders : Turn → Order)
    (schedules : Turn → Schedule) (turns : List Turn) (w : World) (seat : Nat)
    (watched : w.board.Watches seat) (who : Turn) (made : Deliverables)
    (succeeded : pick who (processBoth settings toolbox orders schedules turns w).1 = .ok made) :
    ∃ before after stage details last,
      (processBoth settings toolbox orders schedules turns w).2.board =
        w.board.after ((before ++ (who, .complete stage details) :: after).map Prod.snd) ∧
      heardOfBoth settings toolbox orders schedules turns w seat =
        Task.toldBy w.board.done (before ++ (who, .complete stage details) :: after) ∧
      ((heardOfBoth settings toolbox orders schedules turns w seat).filter
        (·.1 = who)).getLast? = some (who, last) ∧
      Ending who before after stage details last := by
  obtain ⟨history, board, heard, courses⟩ := exists_history watched
  obtain ⟨posts, part, course⟩ := courses who made succeeded
  obtain ⟨rest, stage, details, rfl⟩ := course.ends
  rw [← List.cons_append] at part
  obtain ⟨before, after, rfl, own, later⟩ := partOf_eq_append_cons part
  have reset : Post.reset ∈ before.map Prod.snd := by
    have began : Post.reset ∈ partOf who before := own ▸ List.mem_cons_self
    obtain ⟨entry, member, same⟩ := List.mem_map.1 began
    exact List.mem_map.2 ⟨entry, (List.mem_filter.1 member).1, same⟩
  let done := doneAfter w.board.done (before.map Prod.snd)
  obtain ⟨last, noticed⟩ : ∃ last, (Post.complete stage details).notice? done = some last :=
    ⟨_, rfl⟩
  have mark : last.mark = (stage.title, 100) := by
    obtain rfl := Option.some.inj noticed
    exact congrArg (Prod.mk stage.title) stepPercent_hundred
  have total : last.totalPercent = 100 ↔
      ∀ other, CompletedSince other (before.map Prod.snd ++ [.complete stage details]) := by
    rw [Post.totalPercent_eq (nodup_doneAfter_of_reset reset) noticed,
      ← percentDone_doneAfter_iff (List.mem_append_left _ reset), doneAfter_append]
    rfl
  refine ⟨before, after, stage, details, last, board, heard, ?_, ?_⟩
  · have behind := Task.filter_toldBy later ((Post.complete stage details).next done)
    rw [heard, Task.toldBy_append, Task.toldBy, noticed, List.filter_append, List.filter_append,
      behind, List.append_nil]
    simp
  · exact
      { course := ⟨rest, own, course⟩
        final := later
        step := congrArg Prod.fst mark
        stepPercent := congrArg Prod.snd mark
        total := total
        undisturbed := by
          rintro front middle rfl still
          exact total.2 (completedSince_of_undisturbed own course still) }

end Pair

/-- Two jobs with a picture and no sound. -/
def shorts (who : Turn) : Order :=
  { reel with
    id := pick who ("job-1", "job-2")
    project := { name := "short", duration := 1, pictures := ["one.png"] } }

/-- The second job begins when the words of the first are known. -/
def overlap : List Turn := List.replicate 5 .left ++ List.replicate 3 .right

/-- The second job resets the board while the first is at work, so the last total of the first is
less than a hundred, although both succeed. -/
theorem interrupted_total :
    let outcome := processBoth {} scribe shorts (fun _ => {}) overlap theatre
    let heard := heardOfBoth {} scribe shorts (fun _ => {}) overlap theatre 0
    outcome.1.1.isOk = true ∧ outcome.1.2.isOk = true ∧
      (heard.filter (·.1 = .left)).length = 10 ∧
      (heard.filter (·.1 = .left)).getLast?.map (fun e => (e.2.mark, e.2.totalPercent)) =
        some ((Stage.audio.title, 100), 95) := by
  decide +kernel

/-- The second of the two jobs is not disturbed. -/
theorem last_total_shorts :
    ∃ made, pick .right (processBoth {} scribe shorts (fun _ => {}) overlap theatre).1 = .ok made ∧
      ∃ before after stage details last,
        (processBoth {} scribe shorts (fun _ => {}) overlap theatre).2.board =
          theatre.board.after ((before ++ (.right, .complete stage details) :: after).map
            Prod.snd) ∧
        heardOfBoth {} scribe shorts (fun _ => {}) overlap theatre 0 =
          Task.toldBy theatre.board.done
            (before ++ (.right, .complete stage details) :: after) ∧
        ((heardOfBoth {} scribe shorts (fun _ => {}) overlap theatre 0).filter
          (·.1 = .right)).getLast? = some (.right, last) ∧
        Ending .right before after stage details last := by
  have run : (processBoth {} scribe shorts (fun _ => {}) overlap theatre).1.2.isOk = true := by
    decide +kernel
  cases ended : (processBoth {} scribe shorts (fun _ => {}) overlap theatre).1.2 with
  | error failure =>
      rw [ended] at run
      cases run
  | ok made =>
      exact ⟨made, ended, last_total {} scribe shorts (fun _ => {}) overlap theatre 0
        watches_theatre .right made ended⟩

end Job

end Slidecast
