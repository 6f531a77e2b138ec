import Slidecast.Proofs.Job.Opening

/-!
# Jobs that fail

Whatever fails in a job, at whatever point of whatever order of turns, its directory is cleared
away after the last step of all branches, so that the disk is as it was before the directory was
made: nothing but directories above it can be new (`failure_leaves_no_trace`).
-/

set_option autoImplicit false

namespace Slidecast

open Files Number Speech

namespace Job

variable {directory : Path} {id : String}

/-- Without the directory of a site, a disk is as it was before the directory was made. -/
theorem Opened.lookup_cleared {site : Site directory} {between : Disk} {w : World}
    (opened : Opened site id between) (unused : between.Unused id) (holds : site.Holds w.disk)
    (other : Place) : (cleared directory w).disk.lookup other = between.lookup other := by
  have removed : w.disk.removeTree directory = .ok (w.disk.eraseTree site.place) := by
    simp [Disk.removeTree, holds.find_directory, bind, Except.bind]
  have nonempty : site.place ≠ [] := List.ne_nil_of_mem opened.named
  simp only [cleared, removed]
  rw [Disk.lookup_eraseTree]
  by_cases below : site.place <+: other
  · have filled : other ≠ [] := by
      rintro rfl
      exact nonempty (List.prefix_nil.1 below)
    rw [if_pos ⟨filled, List.isPrefixOf_iff_prefix.2 below⟩,
      unused other (below.subset opened.named)]
  · have apart : other ≠ site.place := by
      rintro rfl
      exact below (List.prefix_refl _)
    rw [if_neg fun both => below (List.isPrefixOf_iff_prefix.1 both.2),
      holds.around other fun both => below both.1, opened.ground,
      Disk.lookup_put between nonempty, if_neg apart]

/-! ## No trace -/

/-- Nothing is left of a job in a directory: the name of the job is unused, so that no path leads
to the directory or below it; whatever existed is as it was; and whatever is new is a directory
above the one of the job. -/
structure LeavesNoTrace (before after : Disk) (directory : Path) (id : String) : Prop where
  unused : after.Unused id
  gone : ∀ p : Path, directory.segments <+: p.segments → after.hasPath p = false
  kept : before.Keeps after
  new : ∀ place node, after.lookup place = some node → before.lookup place = none →
    node = .directory ∧ ∃ q, Path.IsAbove q directory ∧ after.find q = .ok (place, .directory)

/-- Directories above that of a job are no trace. -/
theorem leavesNoTrace_of_makesAbove {before between after : Disk}
    (made : Disk.MakesAbove directory before between) (unused : between.Unused id)
    (isName : Path.IsName id) (absolute : directory.isAbsolute = true)
    (own : id ∈ directory.segments)
    (same : ∀ place, after.lookup place = between.lookup place) :
    LeavesNoTrace before after directory id := by
  have keeps : between.Keeps after := fun place node held => (same place).trans held
  have unusedAfter : after.Unused id := fun place member => (same place).trans (unused place member)
  refine ⟨unusedAfter, fun p below => ?_, made.keeps.trans keeps, fun place node held vacant => ?_⟩
  · cases found : after.find p with
    | error fault => simp [Disk.hasPath, found, Except.toOption]
    | ok result =>
        exact absurd found
          (unusedAfter.find_ne_ok isName.not_dots (below.subset own) result.1 result.2)
  · rw [same] at held
    obtain ⟨isDirectory, q, above, found⟩ := made.new absolute held vacant
    exact ⟨isDirectory, q, above, Disk.find_of_keeps keeps (above.isAbsolute absolute) found⟩

/-- A job that fails in its directory, having touched only its own files there, leaves no trace
when the directory is cleared away. -/
theorem leavesNoTrace_of_opened {before between : Disk} {site : Site directory} {w : World}
    (made : Disk.MakesAbove directory before between) (unused : between.Unused id)
    (isName : Path.IsName id) (absolute : directory.isAbsolute = true)
    (own : id ∈ directory.segments) (opened : Opened site id between) (holds : site.Holds w.disk) :
    LeavesNoTrace before (cleared directory w).disk directory id :=
  leavesNoTrace_of_makesAbove made unused isName absolute own (opened.lookup_cleared unused holds)

/-- Whatever happens in the directory of a job, the site holds afterwards. -/
theorem holds_perform_makeAll (settings : Settings) {toolbox : Toolbox} (careful : toolbox.Careful)
    (order : Order) (schedule : Schedule) {site : Site directory} {w : World}
    (holds : site.Holds w.disk) :
    site.Holds (Action.perform (makeAll settings toolbox order schedule directory) w).2.disk := by
  have trusted : Trusted True toolbox :=
    ⟨careful.mono fun _ _ => trivial, fun loose => absurd trivial loose⟩
  rcases (secures_makeAll settings trusted order schedule holds).perform holds with
    ⟨loose, _⟩ | ⟨base, _⟩
  · exact absurd trivial loose
  · exact base

/-- A job with a fresh name that fails is cleared away with all that it has made. -/
theorem leavesNoTrace_of_perform_process {settings : Settings} {toolbox : Toolbox} {order : Order}
    {schedule : Schedule} {w w' : World} {failure : Failure} (cleans : settings.cleansUp = true)
    (careful : toolbox.Careful) (fresh : Fresh w.disk settings.root (nameOf order))
    (failed : Action.perform (process settings toolbox order schedule) w = (.error failure, w')) :
    LeavesNoTrace w.disk w'.disk (directoryOf settings order w.disk) (nameOf order) := by
  have absolute : (directoryOf settings order w.disk).isAbsolute = true :=
    Disk.isAbsolute_absolute w.disk _
  have own : nameOf order ∈ (directoryOf settings order w.disk).segments := by
    simp [directoryOf, Disk.segments_absolute_join w.disk settings.root fresh.isName]
  have untouched : LeavesNoTrace w.disk w.disk (directoryOf settings order w.disk) (nameOf order) :=
    leavesNoTrace_of_makesAbove (.nothing w.disk) fresh.unused fresh.isName absolute own
      fun _ => rfl
  rw [perform_process] at failed
  split at failed
  · cases failed
    exact untouched
  · cases failed
    exact untouched
  · obtain ⟨between, made, unused, ⟨site, opened, provided⟩ | ⟨fault, provided⟩⟩ :=
      fresh.provideDirectory
    · rw [provided] at failed
      -- the whole run is at the site, so that its end can be cleared away
      have start : site.Holds { w with disk := site.ground, board := w.board.reset : World }.disk :=
        site.holds_ground
      have holds := holds_perform_makeAll settings careful order schedule start
      rw [eq_cleared_of_settled cleans failed]
      exact leavesNoTrace_of_opened made unused fresh.isName absolute own opened holds
    · rw [provided] at failed
      cases failed
      exact leavesNoTrace_of_makesAbove made unused fresh.isName absolute own fun _ => rfl

/-- **Failure leaves no trace.**  A job with a fresh name that fails, at whatever step of whatever
order of turns, leaves the disk as it was, but for directories above its own, if the settings ask
for it and calls of the media tools touch no more than the file they name.  If the settings or the
project are refused, nothing has been done at all. -/
theorem failure_leaves_no_trace (settings : Settings) (toolbox : Toolbox) (order : Order)
    (schedule : Schedule) (w : World) :
    (settings.cleansUp = true → toolbox.Careful → Fresh w.disk settings.root (nameOf order) →
      ∀ failure w', Action.perform (process settings toolbox order schedule) w =
          (.error failure, w') →
        LeavesNoTrace w.disk w'.disk (directoryOf settings order w.disk) (nameOf order)) ∧
    (∀ failure, settings.validate = .error failure →
      Action.perform (process settings toolbox order schedule) w = (.error failure, w)) ∧
    (∀ failure, settings.validate = .ok () → order.project.validate = .error failure →
      Action.perform (process settings toolbox order schedule) w = (.error failure, w)) := by
  refine ⟨?_, ?_, ?_⟩
  · intro cleans careful fresh failure w' failed
    exact leavesNoTrace_of_perform_process cleans careful fresh failed
  · intro failure refused
    rw [perform_process]
    simp [refused]
  · intro failure accepted refused
    rw [perform_process]
    simp [accepted, refused]

/-- A job whose picture does not exist, though its sound does. -/
def lostPicture : Order where
  id := "job-1"
  project :=
    { name := "reel", duration := 1, pictures := ["lost.png"],
      sounds := [{ source := "song.mp3" }] }
  utterance := ⟨["a"], [0], [1]⟩
  base := ⟨"/work"⟩
  createdAt := "2026-01-01T00:00:00Z"

/-- A disk on which there is a sound. -/
def workshop : World :=
  { disk := (Disk.empty ["work"]).put ["work", "song.mp3"] (.file (.text "ID3")) }

theorem nameOf_lostPicture : nameOf lostPicture = "job-1" :=
  Text.kept_of_isPlainText (by decide)

theorem fresh_workshop : Fresh workshop.disk (Settings.root {}) (nameOf lostPicture) := by
  rw [nameOf_lostPicture]
  exact
    { isName := by decide
      unused := (Disk.unused_empty (by decide)).put (by decide) (by decide) _
      unnamed := by decide +kernel }

/-- The sound is cut after the picture has failed, and is cleared away with the directory; when no
time is left for tools, nothing is done. -/
theorem leavesNoTrace_lostPicture :
    let toolbox := Rehearsal.toolbox {}
    (∃ w', Action.perform (process {} toolbox lostPicture {}) workshop =
        (.error (.fileNotFound (.picture ⟨"/work/lost.png"⟩)), w') ∧
      w'.calls.length = 2 ∧
      LeavesNoTrace workshop.disk w'.disk ⟨"/work/output/job-1"⟩ "job-1") ∧
    Action.perform (process { timeout := 0 } toolbox lostPicture {}) workshop =
      (.error (.settings .noTimeout), workshop) := by
  intro toolbox
  have run : (Action.perform (process {} toolbox lostPicture {}) workshop).1 =
        .error (.fileNotFound (.picture ⟨"/work/lost.png"⟩)) ∧
      (Action.perform (process {} toolbox lostPicture {}) workshop).2.calls.length = 2 ∧
      directoryOf {} lostPicture workshop.disk = ⟨"/work/output/job-1"⟩ := by
    decide +kernel
  obtain ⟨failed, called, directory⟩ := run
  obtain ⟨clears, _, _⟩ := failure_leaves_no_trace {} toolbox lostPicture {} workshop
  obtain ⟨_, refuses, _⟩ := failure_leaves_no_trace { timeout := 0 } toolbox lostPicture {} workshop
  refine ⟨⟨_, Prod.ext failed rfl, called, ?_⟩, refuses _ (by decide +kernel)⟩
  rw [← directory, ← nameOf_lostPicture]
  exact clears rfl (Rehearsal.careful {}) fresh_workshop _ _ (Prod.ext failed rfl)

end Job

end Slidecast
