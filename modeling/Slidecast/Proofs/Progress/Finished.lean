import Slidecast.Proofs.Progress.Told

/-!
# What notices show

From the notices alone an observer can see which stages are completed (`finished`).  If a row of
posts has no reset in it, these are the stages that the board has as completed after it
(`finished_told`), and every total is that of the stages that are finished by then
(`totalPercent_told`).
-/

set_option autoImplicit false

namespace Slidecast.Progress

open Number

theorem title_injective : Function.Injective Stage.title := by
  intro stage other same
  cases stage <;> cases other <;> first | rfl | exact absurd same (by decide)

/-- The stages that a row of notices shows as completed. -/
def finished (notices : List Notice) : List Stage :=
  Stage.all.filter fun stage => notices.any fun n => n.mark = (stage.title, 100)

/-- What notices say about some stages. -/
def marksOf (stages : List Stage) (notices : List Notice) : List (String × Single) :=
  (notices.map Notice.mark).filter (·.1 ∈ stages.map Stage.title)

section Finished

variable {notices : List Notice} {stage : Stage}

theorem mem_finished_iff :
    stage ∈ finished notices ↔ (stage.title, 100) ∈ notices.map Notice.mark := by
  simp [finished, Stage.mem_all]

theorem nodup_finished : (finished notices).Nodup := List.Nodup.filter _ (by decide)

theorem finished_mono {others : List Notice} (within : notices ⊆ others) :
    finished notices ⊆ finished others := by
  intro stage done
  rw [mem_finished_iff] at done ⊢
  exact List.map_subset Notice.mark within done

end Finished

/-! ## Notices of posts -/

namespace Post

theorem mark?_eq_complete_iff {post : Post} {stage : Stage} :
    post.mark? = some (stage.title, 100) ↔ ∃ details, post = .complete stage details := by
  cases post with
  | reset => simp [mark?]
  | start other =>
      have apart : (0 : Single) ≠ 100 := by decide +kernel
      simp [mark?, apart]
  | complete other details => simp [mark?, title_injective.eq_iff]

/-- A title tells which stage a post is about. -/
theorem any_mark? (stages : List Stage) (post : Post) :
    (post.mark?.any fun mark => mark.1 ∈ stages.map Stage.title) = post.isAbout stages := by
  cases post with
  | reset => rfl
  | start stage => simp [mark?, isAbout, stage?, title_injective.eq_iff]
  | complete stage details => simp [mark?, isAbout, stage?, title_injective.eq_iff]

end Post

section Rows

variable {done : List Stage} {posts : List Post}

theorem mem_finished_told {stage : Stage} :
    stage ∈ finished (told done posts) ↔ ∃ details, .complete stage details ∈ posts := by
  rw [mem_finished_iff, map_told, List.mem_filterMap]
  constructor
  · rintro ⟨post, among, marked⟩
    obtain ⟨details, rfl⟩ := Post.mark?_eq_complete_iff.1 marked
    exact ⟨details, among⟩
  · rintro ⟨details, among⟩
    exact ⟨_, among, Post.mark?_eq_complete_iff.2 ⟨details, rfl⟩⟩

theorem marksOf_told (stages : List Stage) :
    marksOf stages (told done posts) =
      (posts.filter (Post.isAbout stages)).filterMap Post.mark? := by
  rw [marksOf, map_told]
  induction posts with
  | nil => rfl
  | cons post posts ih =>
      rw [List.filterMap_cons, List.filter_cons, ← Post.any_mark?]
      cases marked : post.mark? with
      | none => exact ih
      | some mark =>
          rw [List.filter_cons, Option.any_some, ih]
          split
          · rw [List.filterMap_cons, marked]
          · rfl

section NoReset

variable (noReset : .reset ∉ posts)

include noReset

theorem completedSince_iff {stage : Stage} :
    CompletedSince stage posts ↔ ∃ details, .complete stage details ∈ posts := by
  constructor
  · rintro ⟨front, details, back, rfl, _⟩
    exact ⟨details, by simp⟩
  · rintro ⟨details, among⟩
    obtain ⟨front, back, rfl⟩ := List.append_of_mem among
    exact ⟨front, details, back, rfl, fun later => noReset (by simp [later])⟩

theorem length_told : (told done posts).length = posts.length := by
  induction posts generalizing done with
  | nil => rfl
  | cons post posts ih =>
      rw [List.mem_cons, not_or] at noReset
      rw [told, List.length_append, ih noReset.2, List.length_cons]
      cases post with
      | reset => exact absurd rfl noReset.1
      | start stage => simp [Post.notice?, Nat.add_comm]
      | complete stage details => simp [Post.notice?, Nat.add_comm]

/-- The stages that are finished are those that are completed. -/
theorem finished_told : (finished (told [] posts)).Perm (doneAfter [] posts) := by
  rw [List.perm_ext_iff_of_nodup nodup_finished (nodup_doneAfter List.nodup_nil)]
  intro stage
  rw [mem_finished_told, mem_doneAfter_iff, completedSince_iff noReset]
  simp

/-- **Every total is that of the stages that are finished by then.** -/
theorem totalPercent_told {before behind : List Notice} {n : Notice}
    (split : told [] posts = before ++ n :: behind) :
    n.totalPercent = percentDone (finished (before ++ [n])) := by
  obtain ⟨front, post, back, rfl, rfl, noticed, rfl⟩ := told_eq_append_cons split
  have upTo : told [] (front ++ [post]) = told [] front ++ [n] := by
    rw [told_append, told, noticed]
    rfl
  have noResetSoFar : .reset ∉ front ++ [post] := by
    intro there
    refine noReset ?_
    rw [List.append_cons]
    exact List.mem_append_left back there
  have sameStages := finished_told noResetSoFar
  rw [Post.totalPercent_eq (nodup_doneAfter List.nodup_nil) noticed, ← upTo,
    percentDone_perm nodup_finished sameStages, doneAfter_append]
  rfl

end NoReset

end Rows

end Slidecast.Progress
