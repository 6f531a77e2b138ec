import Slidecast.Progress.Tracker
import Slidecast.Proofs.Progress.Shares

/-!
# What observers are told

Jobs do three things to a board: they reset it, and tell that a stage starts or that it is
completed.  A row of such posts determines which stages are completed afterwards (`doneAfter`) and
what every observer is told meanwhile (`told`), whatever else there is on the board
(`Board.Watches.after`).

The total in a notice is the percentage of the stages that have been completed before it, since the
last reset, and of its own stage if it tells that this is completed.
-/

set_option autoImplicit false

namespace Slidecast.Progress

open Number

/-- What a notice says about its stage. -/
def Notice.mark (n : Notice) : String × Single := (n.step, n.stepPercent)

/-! ## Completed stages -/

/-- Some stages and another one, which is not listed twice. -/
def withStage (done : List Stage) (stage : Stage) : List Stage :=
  if stage ∈ done then done else done ++ [stage]

section WithStage

variable {done : List Stage}

theorem nodup_withStage (once : done.Nodup) (stage : Stage) : (withStage done stage).Nodup := by
  unfold withStage
  split
  · exact once
  · next missing =>
      refine List.nodup_append.2 ⟨once, List.nodup_singleton stage, ?_⟩
      intro earlier among other single same
      rw [← List.mem_singleton.1 single, ← same] at missing
      exact missing among

theorem mem_withStage {stage other : Stage} :
    other ∈ withStage done stage ↔ other ∈ done ∨ other = stage := by
  unfold withStage
  split
  · next there =>
      constructor
      · exact .inl
      · rintro (earlier | rfl)
        · exact earlier
        · exact there
  · simp

end WithStage

/-! ## Posts -/

/-- What a job does to a board. -/
inductive Post where
  | reset
  | start (stage : Stage)
  | complete (stage : Stage) (details : String)
  deriving DecidableEq

namespace Post

/-- The stage that a post is about. -/
def stage? : Post → Option Stage
  | .reset => none
  | .start stage => some stage
  | .complete stage _ => some stage

/-- A post is about one of some stages. -/
def isAbout (stages : List Stage) (post : Post) : Bool := post.stage?.any (· ∈ stages)

/-- The completed stages after a post. -/
def next (done : List Stage) : Post → List Stage
  | .reset => []
  | .start _ => done
  | .complete stage _ => if stage ∈ done then done else done ++ [stage]

/-- What observers are told, if anything. -/
def notice? (done : List Stage) (post : Post) : Option Notice :=
  match post with
  | .reset => none
  | .start stage => some (.clamped stage.title 0 (percentDone (post.next done)) none)
  | .complete stage details =>
      some (.clamped stage.title 100 (percentDone (post.next done)) (some details))

/-- What observers are told about a stage, if anything. -/
def mark? : Post → Option (String × Single)
  | .reset => none
  | .start stage => some (stage.title, 0)
  | .complete stage _ => some (stage.title, 100)

/-- What is about some stages is not about any others. -/
theorem not_isAbout {stages others : List Stage} (apart : ∀ stage ∈ stages, stage ∉ others)
    {post : Post} (about : post.isAbout stages = true) : post.isAbout others = false := by
  cases post with
  | reset => rfl
  | start stage => exact decide_eq_false (apart stage (of_decide_eq_true about))
  | complete stage details => exact decide_eq_false (apart stage (of_decide_eq_true about))

theorem nodup_next {done : List Stage} (once : done.Nodup) (post : Post) :
    (post.next done).Nodup := by
  cases post with
  | reset => exact List.nodup_nil
  | start stage => exact once
  | complete stage details => exact nodup_withStage once stage

theorem mem_next_complete {done : List Stage} {stage other : Stage} {details : String} :
    other ∈ (complete stage details).next done ↔ other ∈ done ∨ other = stage := mem_withStage

end Post

/-- The completed stages after a row of posts. -/
def doneAfter (done : List Stage) (posts : List Post) : List Stage := posts.foldl Post.next done

/-- What observers are told by a row of posts. -/
def told : List Stage → List Post → List Notice
  | _, [] => []
  | done, post :: posts => (post.notice? done).toList ++ told (post.next done) posts

section Rows

variable {done : List Stage} {posts front back : List Post} {stage : Stage}

@[simp] theorem doneAfter_nil : doneAfter done [] = done := rfl

@[simp] theorem doneAfter_cons (post : Post) :
    doneAfter done (post :: posts) = doneAfter (post.next done) posts := rfl

theorem doneAfter_append :
    doneAfter done (front ++ back) = doneAfter (doneAfter done front) back :=
  List.foldl_append

theorem told_append :
    told done (front ++ back) = told done front ++ told (doneAfter done front) back := by
  induction front generalizing done with
  | nil => rfl
  | cons post front ih => simp only [List.cons_append, told, ih, doneAfter_cons, List.append_assoc]

theorem nodup_doneAfter (once : done.Nodup) : (doneAfter done posts).Nodup := by
  induction posts generalizing done with
  | nil => exact once
  | cons post posts ih => exact ih (post.nodup_next once)

/-- Something has happened in a row of events and has not been stopped since, exactly if it happens
with the last event, or has happened before and is not stopped by this one. -/
theorem exists_since_concat_iff {ε : Type} {happens : List ε → ε → Prop} {stop last : ε}
    {events : List ε} :
    (∃ front e back, events ++ [last] = front ++ e :: back ∧ happens front e ∧ stop ∉ back) ↔
      happens events last ∨ (last ≠ stop ∧
        ∃ front e back, events = front ++ e :: back ∧ happens front e ∧ stop ∉ back) := by
  constructor
  · rintro ⟨front, e, back, split, happened, noStop⟩
    rcases List.eq_nil_or_concat back with rfl | ⟨back, final, rfl⟩
    · obtain ⟨rfl, same⟩ := List.append_inj' split rfl
      rw [(List.cons.inj same).1]
      exact .inl happened
    · rw [List.concat_eq_append, ← List.cons_append, ← List.append_assoc] at split
      obtain ⟨rfl, same⟩ := List.append_inj' split rfl
      obtain rfl := (List.cons.inj same).1
      rw [List.concat_eq_append, List.mem_append, not_or] at noStop
      exact .inr ⟨fun stops => noStop.2 (by simp [stops]), front, e, back, rfl, happened, noStop.1⟩
  · rintro (happens | ⟨goesOn, front, e, back, rfl, happened, noStop⟩)
    · exact ⟨events, last, [], rfl, happens, List.not_mem_nil⟩
    · refine ⟨front, e, back ++ [last], by simp, happened, ?_⟩
      rw [List.mem_append, not_or]
      exact ⟨noStop, fun member => goesOn (List.mem_singleton.1 member).symm⟩

/-- A stage has been completed in a row of posts, and there has been no reset since. -/
def CompletedSince (stage : Stage) (posts : List Post) : Prop :=
  ∃ front details back, posts = front ++ .complete stage details :: back ∧ .reset ∉ back

theorem completedSince_iff_exists :
    CompletedSince stage posts ↔ ∃ front post back, posts = front ++ post :: back ∧
      (∃ details, post = .complete stage details) ∧ .reset ∉ back := by
  constructor
  · rintro ⟨front, details, back, split, noReset⟩
    exact ⟨front, _, back, split, ⟨details, rfl⟩, noReset⟩
  · rintro ⟨front, _, back, split, ⟨details, rfl⟩, noReset⟩
    exact ⟨front, details, back, split, noReset⟩

theorem not_completedSince_nil : ¬ CompletedSince stage [] := by
  rintro ⟨front, details, back, split, _⟩
  simp at split

theorem completedSince_concat (post : Post) :
    CompletedSince stage (posts ++ [post]) ↔
      (∃ details, post = .complete stage details) ∨
        (post ≠ .reset ∧ CompletedSince stage posts) := by
  rw [completedSince_iff_exists, completedSince_iff_exists]
  exact exists_since_concat_iff

/-- **A stage is completed** if it has been completed since the last reset, or was before and there
has been no reset. -/
theorem mem_doneAfter_iff :
    stage ∈ doneAfter done posts ↔
      CompletedSince stage posts ∨ (stage ∈ done ∧ .reset ∉ posts) := by
  induction posts using List.reverseRecOn with
  | nil => simp [not_completedSince_nil]
  | append_singleton posts post ih =>
      rw [doneAfter_append, completedSince_concat, List.mem_append, not_or]
      cases post with
      | reset => simp [Post.next]
      | start other => simpa [Post.next] using ih
      | complete other details =>
          rw [doneAfter_cons, doneAfter_nil, Post.mem_next_complete, ih]
          have own : (∃ details', Post.complete other details = .complete stage details') ↔
              stage = other := by
            constructor
            · rintro ⟨_, same⟩
              cases same
              rfl
            · rintro rfl
              exact ⟨details, rfl⟩
          have apart : .reset ∉ [Post.complete other details] := by simp
          simp only [own, apart, ne_eq, reduceCtorEq, not_false_eq_true, true_and, and_true]
          rw [or_comm, ← or_assoc]

theorem stepPercent_zero : (0 : Single).clamp 0 100 = 0 := by decide +kernel

theorem stepPercent_hundred : (100 : Single).clamp 0 100 = 100 := by decide +kernel

/-- The notices of a row say which stages start and which are completed. -/
theorem map_told : (told done posts).map Notice.mark = posts.filterMap Post.mark? := by
  induction posts generalizing done with
  | nil => rfl
  | cons post posts ih =>
      rw [told, List.map_append, ih]
      cases post with
      | reset => rfl
      | start stage => simp [Post.notice?, Post.mark?, Notice.clamped, Notice.mark, stepPercent_zero]
      | complete stage details =>
          simp [Post.notice?, Post.mark?, Notice.clamped, Notice.mark, stepPercent_hundred]

/-- Every notice comes from a post, what is told before it from the posts before, and what is told
behind it from the posts behind. -/
theorem told_eq_append_cons {before behind : List Notice} {n : Notice}
    (split : told done posts = before ++ n :: behind) :
    ∃ front post back, posts = front ++ post :: back ∧ told done front = before ∧
      post.notice? (doneAfter done front) = some n ∧
      told (post.next (doneAfter done front)) back = behind := by
  induction posts generalizing done before with
  | nil => simp [told] at split
  | cons post posts ih =>
      rw [told] at split
      cases noticed : post.notice? done with
      | none =>
          rw [noticed, Option.toList_none, List.nil_append] at split
          obtain ⟨front, other, back, rfl, rfl, notice, rfl⟩ := ih split
          refine ⟨post :: front, other, back, rfl, ?_, notice, rfl⟩
          rw [told, noticed, Option.toList_none, List.nil_append]
      | some first =>
          rw [noticed, Option.toList_some, List.singleton_append] at split
          cases before with
          | nil =>
              obtain ⟨rfl, rfl⟩ := List.cons.inj split
              exact ⟨[], post, posts, rfl, rfl, noticed, rfl⟩
          | cons other before =>
              obtain ⟨rfl, later⟩ := List.cons.inj split
              obtain ⟨front, last, back, rfl, rfl, notice, rfl⟩ := ih later
              refine ⟨post :: front, last, back, rfl, ?_, notice, rfl⟩
              rw [told, noticed, Option.toList_some, List.singleton_append]

/-- **The total in a notice** is what is done after its post. -/
theorem Post.totalPercent_eq {n : Notice} {post : Post} (once : done.Nodup)
    (noticed : post.notice? done = some n) : n.totalPercent = percentDone (post.next done) := by
  cases post with
  | reset => simp [Post.notice?] at noticed
  | start stage =>
      obtain rfl := Option.some.inj noticed
      exact clamp_percentDone once
  | complete stage details =>
      obtain rfl := Option.some.inj noticed
      exact clamp_percentDone (nodup_next once (.complete stage details))

end Rows

/-! ## Boards -/

namespace Board

/-- The board after a post. -/
def take (b : Board) : Post → Board
  | .reset => b.reset
  | .start stage => b.start stage
  | .complete stage details => b.complete stage (some details)

/-- The board after a row of posts. -/
def after (b : Board) (posts : List Post) : Board := posts.foldl take b

/-- The stages that are completed. -/
def done (b : Board) : List Stage := (b.tracker.map Tracker.completed).getD []

/-- What the observer at a seat has received. -/
def received (b : Board) (seat : Nat) : List Notice :=
  (b.audience[seat]?.map Observer.received).getD []

/-- How often the observer at a seat is registered, which is how often it is told of everything. -/
def registrations (b : Board) (seat : Nat) : Nat :=
  match b.audience[seat]?, b.tracker.bind Tracker.roster with
  | some _, some roster => (roster.members.map Prod.snd).count seat
  | _, _ => 0

/-- Progress is tracked, and the observer at a seat is told of it, once. -/
structure Watches (b : Board) (seat : Nat) : Prop where
  tracked : ∃ roster completed, b.tracker = some ⟨some roster, completed⟩ ∧
    (roster.members.map Prod.snd).count seat = 1
  seated : seat < b.audience.length

end Board

/-- Every observer receives a notice as often as its seat is on the roster. -/
theorem received_notify (roster : Roster) (notice : Notice) (audience : Audience) (seat : Nat) :
    (roster.notify notice audience)[seat]?.map Observer.received =
      audience[seat]?.map fun o =>
        o.received ++ List.replicate ((roster.members.map Prod.snd).count seat) notice := by
  unfold Roster.notify
  induction roster.members generalizing audience with
  | nil => simp
  | cons member members ih =>
      rw [List.foldl_cons, ih, Audience.hand, List.getElem?_modify]
      by_cases own : member.2 = seat
      · simp [own, Option.map_map, Function.comp_def, List.replicate_succ]
      · simp [own]

theorem length_notify (roster : Roster) (notice : Notice) (audience : Audience) :
    (roster.notify notice audience).length = audience.length := by
  unfold Roster.notify
  induction roster.members generalizing audience with
  | nil => rfl
  | cons member members ih =>
      rw [List.foldl_cons, ih]
      exact List.length_modify _ _ _

namespace Board

variable {b : Board} {seat : Nat}

/-- A notice that is reported is received as often as the observer is registered. -/
theorem received_of_report (t : Tracker) (audience : Audience) (stage : Stage)
    (stepPercent : Single) (details : Option String) (seat : Nat) :
    ((t.report stage stepPercent details audience)[seat]?.map Observer.received).getD [] =
      (audience[seat]?.map Observer.received).getD [] ++
        List.replicate ((⟨some t, audience⟩ : Board).registrations seat)
          (t.notice stage stepPercent details) := by
  obtain ⟨roster, completed⟩ := t
  cases roster with
  | none =>
      have none : (⟨some ⟨none, completed⟩, audience⟩ : Board).registrations seat = 0 := by
        unfold registrations
        cases audience[seat]? <;> rfl
      rw [none]
      exact (List.append_nil _).symm
  | some roster =>
      show ((roster.notify _ audience)[seat]?.map Observer.received).getD [] = _
      rw [received_notify]
      unfold registrations
      cases audience[seat]? with
      | none => rfl
      | some observer => rfl

/-- Whoever is registered once receives it once. -/
theorem received_report {roster : Roster} (once : (roster.members.map Prod.snd).count seat = 1)
    (completed : List Stage) (audience : Audience) (seated : seat < audience.length) (stage : Stage)
    (stepPercent : Single) (details : Option String) :
    let t : Tracker := ⟨some roster, completed⟩
    ((t.report stage stepPercent details audience)[seat]?.map Observer.received).getD [] =
      (audience[seat]?.map Observer.received).getD [] ++ [t.notice stage stepPercent details] := by
  intro t
  have registered : (⟨some t, audience⟩ : Board).registrations seat = 1 := by
    unfold registrations
    rw [List.getElem?_eq_getElem seated]
    exact once
  rw [received_of_report, registered]
  rfl

/-- **Whoever watches a board is told of each post**, and watches it further. -/
theorem Watches.take (watched : b.Watches seat) (post : Post) :
    (b.take post).Watches seat ∧ (b.take post).done = post.next b.done ∧
      (b.take post).received seat = b.received seat ++ (post.notice? b.done).toList := by
  obtain ⟨⟨roster, completed, tracked, once⟩, seated⟩ := watched
  obtain ⟨tracker, audience⟩ := b
  cases tracked
  cases post with
  | reset =>
      refine ⟨⟨⟨roster, [], rfl, once⟩, seated⟩, rfl, ?_⟩
      simp [Post.notice?, Board.take, Board.reset, received]
  | start stage =>
      refine ⟨⟨⟨roster, completed, rfl, once⟩, ?_⟩, rfl, ?_⟩
      · exact seated.trans_eq (length_notify roster _ audience).symm
      · exact received_report once completed audience seated stage 0 none
  | complete stage details =>
      refine ⟨⟨⟨roster, _, rfl, once⟩, ?_⟩, rfl, ?_⟩
      · exact seated.trans_eq (length_notify roster _ audience).symm
      · exact received_report once _ audience seated stage 100 (some details)

/-- **What is told by a row of posts.** -/
theorem Watches.after (watched : b.Watches seat) (posts : List Post) :
    (b.after posts).Watches seat ∧ (b.after posts).done = doneAfter b.done posts ∧
      (b.after posts).received seat = b.received seat ++ told b.done posts := by
  induction posts generalizing b with
  | nil => exact ⟨watched, rfl, (List.append_nil _).symm⟩
  | cons post posts ih =>
      obtain ⟨still, done, received⟩ := watched.take post
      obtain ⟨watches, doneLater, receivedLater⟩ := ih still
      refine ⟨watches, ?_, ?_⟩
      · rw [doneAfter_cons, ← done]
        exact doneLater
      · rw [told, ← List.append_assoc, ← received, ← done]
        exact receivedLater

theorem after_append (front back : List Post) :
    b.after (front ++ back) = (b.after front).after back := List.foldl_append

/-- **Who observes a board watches it**, if all seats of the roster have been taken before. -/
theorem watches_observe {roster : Roster} {completed : List Stage}
    (tracked : b.tracker = some ⟨some roster, completed⟩)
    (seated : ∀ member ∈ roster.members, member.2 < b.audience.length) (kind : ObserverKind) :
    (b.observe kind).2.Watches b.audience.length := by
  have free : (roster.members.map Prod.snd).count b.audience.length = 0 := by
    refine List.count_eq_zero.2 fun member => ?_
    obtain ⟨other, among, same⟩ := List.mem_map.1 member
    have below := seated other among
    omega
  unfold observe
  rw [tracked]
  refine ⟨⟨_, completed, rfl, ?_⟩, ?_⟩
  · simp [Roster.add, free]
  · simp

end Board

end Slidecast.Progress
