import Slidecast.Proofs.Job.Completion

/-!
# Opening the site of a job

A job is done in four steps, of which each needs the one before (`perform_process`).  If its name
is fresh, the directory that it makes is a site, and nothing else is made but directories above it
(`Fresh.provideDirectory`).
-/

set_option autoImplicit false

namespace Slidecast

open Files Number Speech

namespace Job

/-! ## The steps of a job -/

/-- The name of the directory of a job. -/
def nameOf (order : Order) : String := Text.kept order.id

/-- The directory of a job. -/
def directoryOf (settings : Settings) (order : Order) (d : Disk) : Path :=
  d.absolute (settings.root / ⟨nameOf order⟩)

/-- The world without the directory of a job, as far as it can be removed. -/
def cleared (directory : Path) (w : World) : World :=
  match w.disk.removeTree directory with
  | .ok disk => { w with disk := disk }
  | .error _ => w

theorem perform_clearAway (directory : Path) (w : World) :
    Action.perform (clearAway directory) w = (.ok (), cleared directory w) := by
  unfold clearAway cleared
  rw [Action.perform_step]
  cases w.disk.removeTree directory with
  | ok disk => rfl
  | error fault => rfl

/-- What becomes of a job in its directory. -/
def settled (settings : Settings) (directory : Path) :
    Except Failure Deliverables × World → Except Failure Deliverables × World
  | (.ok made, w) => (.ok made, w)
  | (.error failure, w) =>
      (.error failure, if settings.cleansUp then cleared directory w else w)

theorem eq_of_settled_ok {settings : Settings} {directory : Path}
    {ended : Except Failure Deliverables × World} {made : Deliverables} {w : World}
    (succeeded : settled settings directory ended = (.ok made, w)) : ended = (.ok made, w) := by
  obtain ⟨outcome, w'⟩ := ended
  cases outcome with
  | ok other => exact succeeded
  | error failure => cases succeeded

theorem eq_cleared_of_settled {settings : Settings} {directory : Path}
    {ended : Except Failure Deliverables × World} {failure : Failure} {w : World}
    (cleans : settings.cleansUp = true)
    (failed : settled settings directory ended = (.error failure, w)) :
    w = cleared directory ended.2 := by
  obtain ⟨outcome, w'⟩ := ended
  cases outcome with
  | ok made => cases failed
  | error other =>
      rw [settled, if_pos cleans] at failed
      exact (congrArg Prod.snd failed).symm

/-- A job is done in four steps, each after the one before has succeeded: the settings and the
project are checked, the directory is made, and the job is done in it. -/
theorem perform_process (settings : Settings) (toolbox : Toolbox) (order : Order)
    (schedule : Schedule) (w : World) :
    Action.perform (process settings toolbox order schedule) w =
      match settings.validate, order.project.validate with
      | .error failure, _ => (.error failure, w)
      | .ok (), .error failure => (.error failure, w)
      | .ok (), .ok () =>
          match w.disk.provideDirectory (directoryOf settings order w.disk) with
          | (.error fault, disk) => (.error (.io fault), { w with disk := disk })
          | (.ok (), disk) =>
              settled settings (directoryOf settings order w.disk)
                (Action.perform
                  (makeAll settings toolbox order schedule (directoryOf settings order w.disk))
                  { w with disk := disk, board := w.board.reset }) := by
  unfold process
  simp only [Action.perform_bind, Action.perform_check, Action.perform_ask, Action.perform_post,
    Action.perform_attempt, Action.provideDirectory, Action.perform_step]
  cases settings.validate with
  | error failure => rfl
  | ok _ =>
      cases order.project.validate with
      | error failure => rfl
      | ok _ =>
          simp only [directoryOf, nameOf, Path.ofText]
          generalize w.disk.absolute (settings.root / ⟨Text.kept order.id⟩) = directory
          generalize w.disk.provideDirectory directory = provided
          obtain ⟨result, disk⟩ := provided
          cases result with
          | error fault => rfl
          | ok _ =>
              simp only [Except.mapError]
              generalize
                Action.perform (makeAll settings toolbox order schedule directory) _ = ended
              obtain ⟨outcome, w'⟩ := ended
              cases outcome with
              | ok made => rfl
              | error failure =>
                  cases cleans : settings.cleansUp with
                  | false => simp [settled, cleans]
                  | true => simp [settled, cleans, perform_clearAway]

/-! ## The site of a job -/

variable {directory : Path} {d : Disk} {id : String}

/-- A name that is neither used on a disk nor in the path of the directory of all jobs. -/
structure Fresh (d : Disk) (root : Path) (id : String) : Prop where
  isName : Path.IsName id
  unused : d.Unused id
  unnamed : id ∉ (d.absolute root).segments

/-- A site whose place has a name that was unused on a disk, and was made on this disk. -/
structure Opened (site : Site directory) (id : String) (between : Disk) : Prop where
  named : id ∈ site.place
  ground : site.ground = between.put site.place .directory

/-- A directory that is made where a name was unused is a site. -/
theorem exists_site {between d' : Disk} (absolute : directory.isAbsolute = true)
    (isName : Path.IsName id) (text : Text.kept (Text.shown id) = id)
    (last : directory.segments.getLast? = some id) (unused : between.Unused id)
    (made : between.makeDirectory directory = .ok d') :
    ∃ site : Site directory, Opened site id between ∧ site.ground = d' := by
  obtain ⟨place, created, vacant, rfl⟩ := Disk.makeDirectory_eq_ok_iff.1 made
  obtain ⟨above, name, named, split, _⟩ := Disk.exists_of_newPlace created
  have same : name = id := Option.some.inj (named.symm.trans last)
  have own : id ∈ place := by simp [split, same]
  have nonempty := Disk.ne_nil_of_newPlace created
  have there : (between.put place .directory).lookup place = some .directory := by
    rw [Disk.lookup_put between nonempty, if_pos rfl]
  have bare : ∀ other, place <+: other → other ≠ place →
      (between.put place .directory).lookup other = none := by
    intro other below apart
    rw [Disk.lookup_put between nonempty, if_neg apart]
    exact unused other (below.subset own)
  have shownLast : directory.asShown.segments.getLast? = some id := by
    rw [Path.segments_asShown, List.getLast?_map, last, Option.map_some, text]
  let site : Site directory :=
    { ground := between.put place .directory
      place := place
      absolute := absolute
      found := (Disk.new_of_makeDirectory absolute made there vacant).2
      bare := bare
      alone := fun other walked held =>
        unused.eq_of_walkPlaces isName nonempty shownLast walked held }
  exact ⟨site, ⟨own, rfl⟩, rfl⟩

/-- The directory of a job with a fresh name becomes a site, or is refused.  Before that, nothing
is made but directories above it. -/
theorem Fresh.provideDirectory {settings : Settings} {order : Order}
    (fresh : Fresh d settings.root (nameOf order)) :
    ∃ between, Disk.MakesAbove (directoryOf settings order d) d between ∧
      between.Unused (nameOf order) ∧
      ((∃ site : Site (directoryOf settings order d), Opened site (nameOf order) between ∧
          d.provideDirectory (directoryOf settings order d) = (.ok (), site.ground)) ∨
        ∃ fault, d.provideDirectory (directoryOf settings order d) = (.error fault, between)) := by
  have absolute : (directoryOf settings order d).isAbsolute = true := Disk.isAbsolute_absolute d _
  have split := Disk.segments_absolute_join d settings.root fresh.isName
  obtain ⟨between, made, unused, ⟨d', last, provided⟩ | refused⟩ :=
    Disk.provideDirectory_of_unused fresh.unused fresh.isName absolute split fresh.unnamed
  · have ended : (directoryOf settings order d).segments.getLast? = some (nameOf order) := by
      simp [directoryOf, split]
    have text : Text.kept (Text.shown (nameOf order)) = nameOf order := by
      rw [nameOf, Text.shown_kept]
    obtain ⟨site, opened, rfl⟩ := exists_site absolute fresh.isName text ended unused last
    exact ⟨between, made, unused, .inl ⟨site, opened, provided⟩⟩
  · exact ⟨between, made, unused, .inr refused⟩

end Job

end Slidecast
