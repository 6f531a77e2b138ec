import Slidecast.Picture.Frame
import Slidecast.Proofs.Files.Discarding

/-!
# What a batch of frames changes

A batch makes a directory, writes frames into it and, if it fails, removes the frames again.  Frames
are written where their paths lead, which may be elsewhere if there are links, and what their paths
name is removed.  Whatever is no place of a frame is left as it is when the directory has been made
(`lookup_perform_makeFrames`).  The layout of the disk stays the same while frames are written, so
where a path leads can be told before the batch begins.
-/

set_option autoImplicit false

namespace Slidecast

open Files

namespace Files.Disk

variable {d d' d'' : Disk} {paths : List Path} {p : Path} {place : Place}

/-- No more has changed than files to which some paths lead, in place of files or of nothing. -/
structure Changes (paths : List Path) (d d' : Disk) : Prop where
  working : d'.working = d.working
  changed : ∀ place, d'.lookup place = d.lookup place ∨
    ((∃ p ∈ paths, d.LeadsTo p place) ∧ d.TakesFile place ∧
      ∃ content, d'.lookup place = some (.file content))

namespace Changes

theorem refl (paths : List Path) (d : Disk) : Changes paths d d := ⟨rfl, fun _ => .inl rfl⟩

/-- Directories and links stay as they are. -/
theorem layout (changes : Changes paths d d') : d.SameLayout d' := by
  refine .of_leaves changes.working fun place => ?_
  rcases changes.changed place with same | ⟨_, takes, content, held⟩
  · exact .inl same
  · refine .inr ⟨?_, by rw [held]; exact isLeaf_file content⟩
    rcases takes.vacantOrFile with vacant | ⟨old, file⟩
    · rw [vacant]
      exact isLeaf_none
    · rw [file]
      exact isLeaf_file old

theorem leadsTo_iff (changes : Changes paths d d') : d'.LeadsTo p place ↔ d.LeadsTo p place := by
  refine exists_congr fun own => ?_
  rw [changes.layout.names_iff, changes.layout.resolve]

/-- A file can be kept where one could be kept before. -/
theorem takesFile_iff (changes : Changes paths d d') : d'.TakesFile place ↔ d.TakesFile place := by
  rcases changes.changed place with same | ⟨_, takes, file⟩
  · unfold TakesFile
    rw [same]
    refine or_congr_right (and_congr_right fun _ => ?_)
    exact ⟨changes.layout.back.directory, changes.layout.forth.directory⟩
  · exact iff_of_true (.inl file) takes

theorem lookup_device_iff (changes : Changes paths d d') {device : Device} :
    d'.lookup place = some (.device device) ↔ d.lookup place = some (.device device) := by
  rcases changes.changed place with same | ⟨_, takes, content, file⟩
  · rw [same]
  · rw [file]
    refine iff_of_false nofun fun held => ?_
    rcases takes.vacantOrFile with vacant | ⟨old, there⟩
    · rw [vacant] at held
      cases held
    · rw [there] at held
      cases held

/-- What no path leads to stays. -/
theorem left (changes : Changes paths d d') (elsewhere : ∀ p ∈ paths, ¬ d.LeadsTo p place) :
    d'.lookup place = d.lookup place :=
  (changes.changed place).resolve_right fun ⟨⟨p, member, leads⟩, _⟩ => elsewhere p member leads

theorem trans (first : Changes paths d d') (second : Changes paths d' d'') : Changes paths d d'' where
  working := second.working.trans first.working
  changed place := by
    rcases second.changed place with same | ⟨⟨p, member, leads⟩, takes, file⟩
    · rw [same]
      exact first.changed place
    · exact .inr ⟨⟨p, member, first.leadsTo_iff.1 leads⟩, first.takesFile_iff.1 takes, file⟩

end Changes

/-- Writing a file changes what its path leads to. -/
theorem changes_write {content : Content} (member : p ∈ paths)
    (wrote : d.write p content = .ok d') : Changes paths d d' := by
  obtain ⟨place, leads, ⟨_, _, _, rfl⟩ | ⟨takes, rfl⟩⟩ := write_eq_ok_iff.1 wrote
  · exact .refl paths d'
  · refine ⟨rfl, fun other => ?_⟩
    rw [lookup_put d takes.ne_nil]
    by_cases same : other = place
    · subst same
      exact .inr ⟨⟨p, member, leads⟩, takes, content, if_pos rfl⟩
    · exact .inl (if_neg same)

/-- Making a directory with all that leads to it keeps what is there. -/
theorem keeps_provideDirectory (d : Disk) (p : Path) : d.Keeps (d.provideDirectory p).2 := by
  obtain ⟨between, above, ⟨d', made, done⟩ | ⟨stopped, _⟩⟩ :=
    makeDirectories_cases d p (p.parts.length + 2)
  · rw [provideDirectory, done]
    exact above.keeps.trans (keeps_of_makeDirectory made)
  · rw [provideDirectory, stopped]
    exact above.keeps

theorem Grounded.makeDirectory (grounded : d.Grounded) (made : d.makeDirectory p = .ok d') :
    d'.Grounded := by
  obtain ⟨place, created, _, rfl⟩ := makeDirectory_eq_ok_iff.1 made
  obtain ⟨_, directory, last, _, _, _, held, _, _, rfl⟩ := newPlace_eq_ok_iff.1 created
  refine grounded.put_directory ?_ (ne_nil_of_newPlace created)
  rw [List.dropLast_concat]
  exact held

theorem Grounded.makesAbove (grounded : d.Grounded) (made : MakesAbove p d d') :
    d'.Grounded := by
  induction made with
  | nothing => exact grounded
  | more _ _ last ih => exact ih.makeDirectory last

theorem Grounded.provideDirectory (grounded : d.Grounded) (p : Path) :
    (d.provideDirectory p).2.Grounded := by
  obtain ⟨between, above, ⟨d', made, done⟩ | ⟨stopped, _⟩⟩ :=
    makeDirectories_cases d p (p.parts.length + 2)
  · rw [Disk.provideDirectory, done]
    exact (grounded.makesAbove above).makeDirectory made
  · rw [Disk.provideDirectory, stopped]
    exact grounded.makesAbove above

end Files.Disk

/-! ## Actions that change what some paths lead to -/

namespace Action

variable {α β : Type} {paths : List Path}

/-- Whatever an action is performed on, it changes no more than what some paths lead to. -/
def Within (paths : List Path) (action : Action α) : Prop :=
  ∀ w, Disk.Changes paths w.disk (perform action w).2.disk

theorem within_pure (a : α) : Within paths (pure a : Action α) := fun w => .refl paths w.disk

theorem within_throw (failure : Failure) : Within paths (throw failure : Action α) :=
  fun w => .refl paths w.disk

theorem Within.bind {action : Action α} {next : α → Action β} (first : Within paths action)
    (second : ∀ a, Within paths (next a)) : Within paths (action >>= next) := by
  intro w
  have changes := first w
  rw [perform_bind]
  generalize perform action w = outcome at changes ⊢
  rcases outcome with ⟨result, w'⟩
  cases result with
  | ok a => exact changes.trans (second a w')
  | error failure => exact changes

theorem Within.attempt {action : Action α} (within : Within paths action) :
    Within paths (Action.attempt action) := by
  intro w
  rw [perform_attempt]
  exact within w

end Action

/-! ## Frames -/

namespace Picture

open Slidecast.Action

variable {paths : List Path} {room : Darkroom} {style : FrameStyle}

theorem changes_makeFrame {source target : Path} (member : target ∈ paths) (d : Disk) :
    Disk.Changes paths d (makeFrame room style source target d).2 := by
  unfold makeFrame
  split
  · split
    · exact .refl paths d
    · split
      · exact .refl paths d
      · unfold storeFrame
        dsimp only
        split
        · exact .refl paths d
        next d' wrote => exact Disk.changes_write member wrote
  · exact .refl paths d

theorem within_renderFrame {source target : Path} (member : target ∈ paths) :
    Within paths (renderFrame room style source target) :=
  fun w => changes_makeFrame member w.disk

theorem within_finish {jobs : List Job} (own : ∀ job ∈ jobs, job.target ∈ paths) :
    Within paths (finish room style jobs) := by
  induction jobs with
  | nil => exact within_pure []
  | cons job jobs ih =>
      have others : Within paths (finish room style jobs) :=
        ih fun other member => own other (List.mem_cons_of_mem job member)
      refine (within_renderFrame (own job List.mem_cons_self)).attempt.bind fun result => ?_
      cases result with
      | ok _ => exact others
      | error failure => exact others.bind fun _ => within_pure _

theorem within_workOn (inFlight : Nat) {jobs : List Job}
    (own : ∀ job ∈ jobs, job.target ∈ paths) : Within paths (workOn room style inFlight jobs) := by
  induction jobs with
  | nil => exact within_pure []
  | cons job jobs ih =>
      have rest : ∀ other ∈ jobs, other.target ∈ paths :=
        fun other member => own other (List.mem_cons_of_mem job member)
      refine (within_renderFrame (own job List.mem_cons_self)).attempt.bind fun result => ?_
      cases result with
      | ok _ => exact ih rest
      | error failure =>
          have inFlightOwn : ∀ other ∈ jobs.take inFlight, other.target ∈ paths :=
            fun other member => rest other (List.mem_of_mem_take member)
          exact (within_finish inFlightOwn).bind fun _ => within_pure _

/-! ## Batches -/

variable {crew : Crew} {sources : List Path} {directory : Path}

/-- The frame of a picture goes to a place of its own. -/
theorem target_mem_targets {job : Job} (member : job ∈ jobs crew sources directory) :
    job.target ∈ targets directory sources.length := by
  obtain ⟨number, _, made⟩ := List.mem_filterMap.1 member
  obtain ⟨source, there, rfl⟩ := Option.map_eq_some_iff.1 made
  obtain ⟨within, _⟩ := List.getElem?_eq_some_iff.1 there
  exact List.mem_map.2 ⟨number, List.mem_range.2 within, rfl⟩

/-- Whatever the order of the crew, a batch changes what the paths of its frames lead to. -/
theorem within_work : Within (targets directory sources.length)
    (work style crew sources directory) := by
  refine (within_workOn crew.inFlight fun job => target_mem_targets).bind fun failures => ?_
  split
  · exact within_throw _
  · exact within_pure ()

theorem perform_provideDirectory (p : Path) (w : World) :
    perform (provideDirectory p) w =
      ((w.disk.provideDirectory p).1.mapError .io,
        { w with disk := (w.disk.provideDirectory p).2 }) := rfl

/-- A batch is refused, or its directory cannot be made, or it is worked on; if that fails, its
frames are removed. -/
theorem perform_makeFrames (style : FrameStyle) (crew : Crew) (sources : List Path)
    (directory : Path) (w : World) :
    perform (makeFrames style crew sources directory) w =
      if sources = [] then (.error (.invalidInput .noPictures), w)
      else
        let paths := targets directory sources.length
        match w.disk.provideDirectory directory with
        | (.error fault, made) => (.error (.io fault), { w with disk := made })
        | (.ok (), made) =>
            match perform (work style crew sources directory) { w with disk := made } with
            | (.ok (), w') => (.ok paths, w')
            | (.error failure, w') =>
                (.error failure, { w' with disk := (w'.disk.removeAll paths).2 }) := by
  unfold makeFrames
  by_cases empty : sources = []
  · subst empty
    rfl
  · have filled : sources.isEmpty = false := by simpa using empty
    rw [if_neg empty]
    simp only [filled]
    show perform (provideDirectory directory >>= fun _ =>
      keeping ⟨targets directory sources.length⟩ (work style crew sources directory) >>= fun _ =>
        pure (targets directory sources.length)) w = _
    rw [perform_bind, perform_provideDirectory]
    generalize w.disk.provideDirectory directory = provided
    rcases provided with ⟨result, made⟩
    cases result with
    | error fault => rfl
    | ok _ =>
        show perform (keeping _ _ >>= _) _ = _
        rw [perform_bind, perform_keeping]
        dsimp only
        generalize perform (work style crew sources directory) { w with disk := made } = worked
        rcases worked with ⟨result, w'⟩
        cases result with
        | error failure => rfl
        | ok _ => rfl

/-- What is no place of a frame is as it is when the directory has been made. -/
theorem lookup_perform_makeFrames_eq (style : FrameStyle) (crew : Crew) {sources : List Path}
    (directory : Path) (w : World) (filled : sources ≠ []) {place : Place}
    (elsewhere : ∀ p ∈ targets directory sources.length,
      ¬ (w.disk.provideDirectory directory).2.IsPlaceOf p place) :
    (perform (makeFrames style crew sources directory) w).2.disk.lookup place =
      (w.disk.provideDirectory directory).2.lookup place := by
  rw [perform_makeFrames, if_neg filled]
  generalize w.disk.provideDirectory directory = provided at elsewhere ⊢
  rcases provided with ⟨result, made⟩
  cases result with
  | error fault => rfl
  | ok _ =>
      have changes : Disk.Changes (targets directory sources.length) made
          (perform (work style crew sources directory) { w with disk := made }).2.disk :=
        within_work { w with disk := made }
      dsimp only
      generalize perform (work style crew sources directory) { w with disk := made } = worked
        at changes ⊢
      rcases worked with ⟨result, w'⟩
      have worked := changes.left fun p member leads => elsewhere p member leads.isPlaceOf
      cases result with
      | ok _ => exact worked
      | error failure =>
          have removed := Disk.lookup_removeAll w'.disk place fun p member names =>
            elsewhere p member (changes.layout.names_iff.1 names).isPlaceOf
          exact removed.trans worked

/-- **Whatever is no place of a frame is left as it is** when the directory has been made, whether
the batch succeeds or fails. -/
theorem lookup_perform_makeFrames (style : FrameStyle) (crew : Crew) (sources : List Path)
    (directory : Path) (w : World) {place : Place} {node : Node}
    (held : w.disk.lookup place = some node)
    (elsewhere : ∀ p ∈ targets directory sources.length,
      ¬ (w.disk.provideDirectory directory).2.IsPlaceOf p place) :
    (perform (makeFrames style crew sources directory) w).2.disk.lookup place = some node := by
  by_cases empty : sources = []
  · rw [perform_makeFrames, if_pos empty]
    exact held
  · rw [lookup_perform_makeFrames_eq style crew directory w empty elsewhere]
    exact Disk.keeps_provideDirectory w.disk directory place node held

/-- **A batch that fails removes its frames**, up to the first path that leads to a directory. -/
theorem lookup_perform_makeFrames_of_names {style : FrameStyle} {crew : Crew}
    {sources : List Path} {directory : Path} {w : World} {failure : Failure}
    (failed : (perform (makeFrames style crew sources directory) w).1 = .error failure)
    (grounded : w.disk.Grounded) (filled : sources ≠ []) {made : Disk}
    (provided : w.disk.provideDirectory directory = (.ok (), made))
    (noLinks : ∀ p ∈ targets directory sources.length, made.NamesNoLink p) {p : Path}
    {place : Place} (inFront : p ∈ made.removable (targets directory sources.length))
    (names : made.Names p place) :
    (perform (makeFrames style crew sources directory) w).2.disk.lookup place = none := by
  have ground : made.Grounded := by
    have kept := grounded.provideDirectory directory
    rwa [provided] at kept
  have changes : Disk.Changes (targets directory sources.length) made
      (perform (work style crew sources directory) { w with disk := made }).2.disk :=
    within_work { w with disk := made }
  rw [perform_makeFrames, if_neg filled] at failed ⊢
  dsimp only at failed ⊢
  rw [provided] at failed ⊢
  dsimp only at failed ⊢
  generalize perform (work style crew sources directory) { w with disk := made } = worked
    at changes failed ⊢
  rcases worked with ⟨result, w'⟩
  cases result with
  | ok _ => cases failed
  | error cause =>
      have clears := (ground.of_sameLayout changes.layout).clears_removeAll
        fun q member => changes.layout.namesNoLink (noLinks q member)
      refine clears.gone p ?_ place (changes.layout.names_iff.2 names)
      rw [changes.layout.removable_eq]
      exact inFront

end Picture

end Slidecast
