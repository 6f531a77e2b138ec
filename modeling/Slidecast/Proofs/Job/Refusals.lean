import Slidecast.Proofs.Audio.Outcome
import Slidecast.Proofs.Job.Success
import Slidecast.Proofs.Reasons
import Slidecast.Proofs.Speech.Acceptance

/-!
# What a valid job can still be refused for

The settings and the project are checked before a job begins.  Many of these checks are made again
in the course of the job, where its size and its background are needed, where its pictures are
worked on and shown, where its sounds are cut or mixed, and where its words are put in a row.  None
of them can fail there: each branch finds what the checks have made sure of, be it through what
another step has made of it.

What is left are refusals that no check beforehand has looked for (`Excuse`).
-/

set_option autoImplicit false

namespace Slidecast

open Files Number Speech Audio

/-! ## What is checked beforehand -/

/-- What is known of a project that is accepted. -/
structure Project.Valid (p : Project) : Prop where
  filled : p.pictures ≠ []
  length : IsLength p.duration
  size : ∃ size, p.frameSize = .ok size
  background : ∃ colour, p.backgroundColour = .ok colour

theorem Project.valid_of_validate {p : Project} (accepted : p.validate = .ok ()) : p.Valid := by
  simp only [Project.validate] at accepted
  split at accepted
  · cases accepted
  · split at accepted
    · cases accepted
    · next length =>
        split at accepted
        · cases accepted
        · next filled =>
            obtain ⟨size, sized, accepted⟩ := bind_eq_ok.1 accepted
            obtain ⟨colour, coloured, _⟩ := bind_eq_ok.1 accepted
            exact ⟨by simpa using filled, isLength_iff.2 (not_not.1 length), ⟨size, sized⟩,
              ⟨colour, coloured⟩⟩

/-- Whether a failure is one of those that calls of tools have. -/
def Failure.isOfTool : Failure → Bool
  | .toolFailed _ _ _ | .toolTimeout _ _ | .io _ => true
  | _ => false

theorem Failure.isLate_of_isOfTool {failure : Failure} (ofTool : failure.isOfTool = true) :
    failure.isLate = true := by
  cases failure with
  | toolFailed tool status stderr => rfl
  | toolTimeout tool seconds => rfl
  | io fault => rfl
  | _ => cases ofTool

/-- Calls fail in the ways of tools only. -/
def Toolbox.FailsAsTool (toolbox : Toolbox) : Prop :=
  ∀ calls call d failure, (toolbox calls call d).1 = .error failure → failure.isOfTool = true

/-! ## Late failures -/

/-- A failure that no check beforehand could have foreseen. -/
def IsLate (failure : Failure) : Prop := failure.isLate = true

section Late

variable {met : World → Prop}

theorem isLate_io (fault : Fault) : IsLate (.io fault) := rfl

theorem yields_call_of_failsAsTool {toolbox : Toolbox} (honest : toolbox.FailsAsTool) (tool : Tool)
    (arguments : List String) :
    Action.Yields met IsLate (fun _ => True) (Action.call toolbox tool arguments) :=
  Action.yields_call fun calls d failure failed =>
    Failure.isLate_of_isOfTool (honest calls _ d failure failed)

namespace Picture

/-- A frame fails for its picture or for the disk. -/
theorem yields_renderFrame (room : Darkroom) (style : FrameStyle) (source target : Path) :
    Action.Yields met IsLate (fun _ => True) (renderFrame room style source target) := by
  refine Action.yields_step fun w _ => ?_
  dsimp only
  unfold makeFrame
  split
  · split
    · exact rfl
    · split
      · exact rfl
      · unfold storeFrame
        dsimp only
        split
        · exact rfl
        · split
          · exact trivial
          · exact rfl
  · exact rfl

theorem yields_attempt (room : Darkroom) (style : FrameStyle) (job : Job) :
    Action.Yields met IsLate (Action.Yielded IsLate fun _ => True)
      (Action.attempt (renderFrame room style job.source job.target)) :=
  (yields_renderFrame room style job.source job.target).attempt IsLate

/-- All failures in a list are late. -/
def AllLate (failures : List (Nat × Failure)) : Prop := ∀ entry ∈ failures, IsLate entry.2

theorem allLate_cons {number : Nat} {failure : Failure} {failures : List (Nat × Failure)}
    (late : IsLate failure) (others : AllLate failures) : AllLate ((number, failure) :: failures) :=
  List.forall_mem_cons.2 ⟨late, others⟩

theorem yields_finish (room : Darkroom) (style : FrameStyle) (jobs : List Job) :
    Action.Yields met IsLate AllLate (finish room style jobs) := by
  induction jobs with
  | nil => exact Action.yields_pure (List.forall_mem_nil _)
  | cons job jobs ih =>
      refine (yields_attempt room style job).bind fun outcome late => ?_
      cases outcome with
      | ok _ => exact ih
      | error failure =>
          exact ih.bind fun others all => Action.yields_pure (allLate_cons late all)

theorem yields_workOn (room : Darkroom) (style : FrameStyle) (inFlight : Nat) (jobs : List Job) :
    Action.Yields met IsLate AllLate (workOn room style inFlight jobs) := by
  induction jobs with
  | nil => exact Action.yields_pure (List.forall_mem_nil _)
  | cons job jobs ih =>
      refine (yields_attempt room style job).bind fun outcome late => ?_
      cases outcome with
      | ok _ => exact ih
      | error failure =>
          exact (yields_finish room style _).bind fun others all =>
            Action.yields_pure (allLate_cons late all)

theorem mem_of_firstFailure {failures : List (Nat × Failure)} {entry : Nat × Failure}
    (first : firstFailure failures = some entry) : entry ∈ failures := by
  induction failures generalizing entry with
  | nil => cases first
  | cons other failures ih =>
      rw [firstFailure] at first
      split at first
      · next earlier found =>
          split at first
          · cases first
            exact List.mem_cons_of_mem _ (ih found)
          · cases first
            exact List.mem_cons_self
      · cases first
        exact List.mem_cons_self

/-- **A batch of pictures** is never found empty, and gives at least one frame. -/
theorem yields_makeFrames (style : FrameStyle) (crew : Crew) {sources : List Path}
    (filled : sources ≠ []) (directory : Path) :
    Action.Yields met IsLate (· ≠ []) (makeFrames style crew sources directory) := by
  have worked : Action.Yields met IsLate (fun _ => True) (work style crew sources directory) := by
    refine (yields_workOn crew.darkroom style _ _).bind fun failures all => ?_
    cases first : firstFailure failures with
    | none => exact Action.yields_pure trivial
    | some entry => exact Action.yields_throw (all entry (mem_of_firstFailure first))
  have nonempty : sources.isEmpty = false := by simpa using filled
  unfold makeFrames
  rw [nonempty]
  refine (Action.yields_provideDirectory isLate_io directory).bind fun _ _ => ?_
  refine (worked.keeping _).bind fun _ _ => Action.yields_pure ?_
  simpa [targets] using filled

end Picture

/-- The playlist of some frames fails for the disk only. -/
theorem Slideshow.yields_keepPlaylist (t : Transcript) (fallback : Double) (markers : List String)
    {pictures : List Path} (filled : pictures ≠ []) (directory : Path) :
    Action.Yields met IsLate (fun _ => True)
      (keepPlaylist t fallback markers pictures directory) := by
  have nonempty : pictures.isEmpty = false := by simpa using filled
  unfold keepPlaylist
  rw [nonempty]
  refine (Action.yields_provideDirectory isLate_io directory).bind fun _ _ => ?_
  exact (Action.yields_changeDisk isLate_io _).bind fun _ _ => Action.yields_pure trivial

/-- A single track is found to be cut to a length that makes sense. -/
theorem Audio.yields_trim {toolbox : Toolbox} (honest : toolbox.FailsAsTool) (source : Path)
    {seconds : Double} (length : IsLength seconds) (output : Path) :
    Action.Yields met IsLate (fun _ => True) (trim toolbox source seconds output) := by
  have asked : Action.Yields met IsLate (fun _ => True) (Action.ask (·.hasPath source)) :=
    Action.yields_ask fun _ _ => trivial
  have checked : Action.Yields met IsLate (fun _ => True)
      (Action.check (validateLength seconds)) := by
    rw [validateLength_eq_ok_iff.2 length]
    exact Action.yields_check trivial
  have called : Action.Yields met IsLate (fun _ => True)
      (Action.call toolbox .ffmpeg (trimArguments source seconds output)) :=
    yields_call_of_failsAsTool honest _ _
  refine asked.bind fun there _ => ?_
  cases there with
  | false => exact Action.yields_throw_bind _ rfl
  | true =>
      refine checked.bind fun _ _ => (called.keeping _).bind fun _ _ => ?_
      exact Action.yields_pure trivial

/-! ## What is left -/

/-- Why a job whose settings and project have been accepted may still be refused: the columns of the
utterance have different lengths; a time of its first word with such a time cannot be used; or a
track of the project is found to be no sound file, though there is something at its path, or has a
volume or an offset that cannot be heard. -/
inductive Job.Excuse (order : Order) (met : World → Prop) : Refusal → Prop where
  | columns (uneven : ¬ order.utterance.IsEven) :
      Excuse order met (.unevenColumns order.utterance.characters.length
        order.utterance.starts.length order.utterance.ends.length)
  | time (k : Nat) (w : Word) (first : IsFirstUntimed 0 order.utterance.reportedWords k w) :
      Excuse order met (.timeNotFinite k w.text)
  | format (t : Track) (member : t ∈ order.project.tracks order.base) (w : World) (meets : met w)
      (there : w.disk.hasPath t.source = true) (foreign : isSoundFile w.disk t.source = false) :
      Excuse order met (.audioFormat t.source)
  | volume (t : Track) (member : t ∈ order.project.tracks order.base)
      (unheard : ¬ IsLevel t.volume) : Excuse order met (.trackVolume t.source t.volume)
  | offset (t : Track) (member : t ∈ order.project.tracks order.base)
      (unheard : ¬ IsLevel t.offset) : Excuse order met (.trackOffset t.source t.offset)

/-- A failure that is late or excused. -/
def Job.Accounted (order : Order) (met : World → Prop) (failure : Failure) : Prop :=
  IsLate failure ∨ ∃ cause, failure = .invalidInput cause ∧ Excuse order met cause

namespace Job

variable {order : Order}

theorem accounted_io (fault : Fault) : Accounted order met (.io fault) := .inl rfl

/-- Whatever fails late is accounted for. -/
theorem yields_of_late {α : Type} {values : α → Prop} {action : Action α}
    (yields : Action.Yields met IsLate values action) :
    Action.Yields met (Accounted order met) values action :=
  yields.mono (fun _ late => .inl late) fun _ holds => holds

/-- A track that is refused has a volume or an offset that cannot be heard. -/
theorem accounted_of_validate {t : Track} {failure : Failure}
    (member : t ∈ order.project.tracks order.base) (refused : t.validate = .error failure) :
    Accounted order met failure := by
  unfold Track.validate at refused
  split at refused
  · next unheard =>
      cases refused
      exact .inr ⟨_, rfl, .volume t member (mt isLevel_iff.1 unheard)⟩
  · split at refused
    · next unheard =>
        cases refused
        exact .inr ⟨_, rfl, .offset t member (mt isLevel_iff.1 unheard)⟩
    · cases refused

theorem accounted_of_forM {tracks : List Track} {failure : Failure}
    (own : ∀ t ∈ tracks, t ∈ order.project.tracks order.base)
    (refused : tracks.forM Track.validate = .error failure) : Accounted order met failure := by
  induction tracks with
  | nil => cases refused
  | cons t tracks ih =>
      change (t.validate >>= fun _ => tracks.forM Track.validate) = .error failure at refused
      cases first : t.validate with
      | error other =>
          rw [first] at refused
          cases refused
          exact accounted_of_validate (own t List.mem_cons_self) first
      | ok _ =>
          rw [first] at refused
          exact ih (fun other member => own other (List.mem_cons_of_mem t member)) refused

section Branches

variable {settings : Settings} {toolbox : Toolbox} {directory : Path}

/-- Several tracks are found to be there, with a length that makes sense. -/
theorem yields_mix (honest : toolbox.FailsAsTool) (dropout : Nat) {tracks : List Track}
    (own : ∀ t ∈ tracks, t ∈ order.project.tracks order.base) (filled : tracks ≠ [])
    {seconds : Double} (length : IsLength seconds) (output : Path) :
    Action.Yields met (Accounted order met) (fun _ => True)
      (mix toolbox dropout tracks seconds output) := by
  have checked : Action.Yields met (Accounted order met) (fun _ => True)
      (Action.check (validateMix tracks seconds)) := by
    have nonempty : tracks.isEmpty = false := by simpa using filled
    refine Action.yields_check ?_
    simp only [validateMix, nonempty, validateLength_eq_ok_iff.2 length]
    change Action.Yielded _ _ (tracks.forM Track.validate)
    cases refused : tracks.forM Track.validate with
    | ok _ => exact trivial
    | error failure => exact accounted_of_forM own refused
  have asked : Action.Yields met (Accounted order met) (fun _ => True)
      (Action.ask fun d => tracks.filter fun t => d.hasPath t.source) :=
    Action.yields_ask fun _ _ => trivial
  unfold mix
  refine checked.bind fun _ _ => asked.bind fun present _ => ?_
  dsimp only
  split
  · exact Action.yields_throw_bind _ (.inl rfl)
  · have called : Action.Yields met (Accounted order met) (fun _ => True)
        (Action.call toolbox .ffmpeg (mixArguments dropout present seconds output)) :=
      yields_of_late (yields_call_of_failsAsTool honest _ _)
    exact (called.keeping _).bind fun _ _ => Action.yields_pure trivial

theorem yields_assembleSound (honest : toolbox.FailsAsTool) {tracks : List Track}
    (own : ∀ t ∈ tracks, t ∈ order.project.tracks order.base) (filled : tracks ≠ [])
    {duration : Double} (length : IsLength duration) :
    Action.Yields met (Accounted order met) (fun _ => True)
      (assembleSound settings toolbox tracks duration directory) := by
  have mixed : Action.Yields met (Accounted order met) (fun _ => True)
      (mix toolbox settings.dropout tracks duration (directory / .ofText (mixName duration))) :=
    yields_mix honest _ own filled length _
  unfold assembleSound
  split
  · next single =>
      split
      · exact yields_of_late (yields_trim honest single.source length _)
      · exact mixed
  · exact mixed

/-- **The sound** of a project is refused for one of its tracks only. -/
theorem yields_makeSound (honest : toolbox.FailsAsTool) {duration : Double}
    (length : IsLength duration) :
    Action.Yields met (Accounted order met) (fun _ => True)
      (makeSound settings toolbox (order.project.tracks order.base) duration directory) := by
  refine (Action.yields_post _).bind fun _ _ => ?_
  split
  · exact (Action.yields_post _).bind fun _ _ => Action.yields_pure trivial
  · next filled =>
      have asked : Action.Yields met (Accounted order met)
          (fun found => ∀ t, found = some t →
            Accounted order met (.invalidInput (.audioFormat t.source)))
          (Action.ask (foreignTrack? (order.project.tracks order.base))) := by
        refine Action.yields_ask fun w meets t found => ?_
        have foreign := List.find?_some found
        simp only [Bool.and_eq_true, Bool.not_eq_true'] at foreign
        exact .inr ⟨_, rfl,
          .format t (List.mem_of_find?_eq_some found) w meets foreign.1 foreign.2⟩
      refine asked.bind fun found explained => ?_
      cases found with
      | some t => exact Action.yields_throw (explained t rfl)
      | none =>
          have nonempty : order.project.tracks order.base ≠ [] := by simpa using filled
          refine (yields_assembleSound honest (fun _ => id) nonempty length).bind fun path _ => ?_
          exact (Action.yields_post _).bind fun _ _ => Action.yields_pure trivial

/-- **The frames and the playlist** are never refused. -/
theorem yields_makeVisuals (valid : order.project.Valid) (crew : Picture.Crew)
    (style : Picture.FrameStyle) (words : Transcript) :
    Action.Yields met IsLate (fun _ => True)
      (makeVisuals settings order crew style words directory) := by
  have filled : order.project.picturePaths order.base ≠ [] := by
    simpa [Project.picturePaths] using valid.filled
  refine (Action.yields_post _).bind fun _ _ => ?_
  refine (Picture.yields_makeFrames style crew filled directory).bind fun frames framed => ?_
  refine (Action.yields_post _).bind fun _ _ => (Action.yields_post _).bind fun _ _ => ?_
  refine (Slideshow.yields_keepPlaylist words _ _ framed directory).bind fun playlist _ => ?_
  exact (Action.yields_post _).bind fun _ _ => Action.yields_pure trivial

/-- **The subtitles** are never refused. -/
theorem yields_makeSubtitles (words : Transcript) (size : FrameSize) :
    Action.Yields met IsLate (fun _ => True) (makeSubtitles settings words size directory) := by
  have kept : Action.Yields met IsLate (fun _ => True)
      (Subtitle.keepScript words settings.subtitles size.width size.height directory) := by
    refine (Action.yields_provideDirectory isLate_io directory).bind fun _ _ => ?_
    exact (Action.yields_changeDisk isLate_io _).bind fun _ _ => Action.yields_pure trivial
  refine (Action.yields_post _).bind fun _ _ => kept.bind fun path _ => ?_
  exact (Action.yields_post _).bind fun _ _ => Action.yields_pure trivial

/-- Every failure among the ends of the branches is accounted for. -/
structure AllAccounted (order : Order) (met : World → Prop) (outcomes : Outcomes) : Prop where
  visuals : Action.Yielded (Accounted order met) (fun _ => True) outcomes.1.1
  subtitles : Action.Yielded (Accounted order met) (fun _ => True) outcomes.1.2
  sound : Action.Yielded (Accounted order met) (fun _ => True) outcomes.2

theorem yields_makeBranches (valid : order.project.Valid) (honest : toolbox.FailsAsTool)
    (schedule : Schedule) (size : FrameSize) (words : Transcript) (style : Picture.FrameStyle) :
    Action.Yields met (fun _ => False) (AllAccounted order met)
      (makeBranches settings toolbox order schedule directory size
        (order.project.tracks order.base) words style) := by
  have visuals : Action.Yields met (Accounted order met) (fun _ => True)
      (makeVisuals settings order schedule.crew style words directory) :=
    yields_of_late (yields_makeVisuals valid schedule.crew style words)
  have subtitles : Action.Yields met (Accounted order met) (fun _ => True)
      (makeSubtitles settings words size directory) :=
    yields_of_late (yields_makeSubtitles words size)
  have pair : Action.Yields met (fun _ => False) _
      (Action.together schedule.subtitleTurns _ _) :=
    visuals.together schedule.subtitleTurns subtitles
  refine (pair.together schedule.soundTurns (yields_makeSound honest valid.length)).bind ?_
  rintro ⟨first, sound⟩ ⟨both, third⟩
  cases first with
  | error failure => exact both.elim
  | ok outcomes => exact Action.yields_pure ⟨both.1, both.2, third⟩

/-- A manifest cannot be written if a path is not a text, and this is found late. -/
theorem yielded_manifest (made : Deliverables) :
    Action.Yielded (Accounted order met) (fun _ => True) made.manifest := by
  unfold Deliverables.manifest
  cases Json.checkPaths made.paths with
  | ok _ => exact trivial
  | error fault => exact .inl rfl

theorem yields_makeParts (valid : order.project.Valid) (honest : toolbox.FailsAsTool)
    (schedule : Schedule) (size : FrameSize) :
    Action.Yields met (Accounted order met) (fun _ => True)
      (makeParts settings toolbox order schedule directory size
        (order.project.tracks order.base)) := by
  have transcribed : Action.Yields met (Accounted order met) (fun _ => True)
      (Action.check order.utterance.transcript) := by
    refine Action.yields_check ?_
    cases read : order.utterance.transcript with
    | ok words => exact trivial
    | error failure =>
        rcases Utterance.of_transcript_eq_error read with ⟨uneven, rfl⟩ | ⟨_, k, w, first, rfl⟩
        · exact .inr ⟨_, rfl, .columns uneven⟩
        · exact .inr ⟨_, rfl, .time k w first⟩
  obtain ⟨colour, coloured⟩ := valid.background
  refine (Action.yields_post _).bind fun _ _ => transcribed.bind fun words _ => ?_
  refine (Action.yields_post _).bind fun _ _ => ?_
  rw [coloured]
  refine ((yields_makeBranches valid honest schedule size words _).mono (fun _ => False.elim)
    fun _ => id).bind fun outcomes all => ?_
  refine (Action.yields_check all.visuals).bind fun visuals _ => ?_
  refine (Action.yields_check all.subtitles).bind fun subtitles _ => ?_
  refine (Action.yields_check all.sound).bind fun sound _ => ?_
  refine (Action.yields_check (yielded_manifest _)).bind fun manifest _ => ?_
  exact (Action.yields_changeDisk accounted_io _).bind fun _ _ => Action.yields_pure trivial

theorem yields_makeAll (valid : order.project.Valid) (honest : toolbox.FailsAsTool)
    (schedule : Schedule) :
    Action.Yields met (Accounted order met) (fun _ => True)
      (makeAll settings toolbox order schedule directory) := by
  obtain ⟨size, sized⟩ := valid.size
  have answered : Action.Yields met (Accounted order met) (fun _ => True)
      (versionLine toolbox) := by
    have called : Action.Yields met (Accounted order met) (fun _ => True)
        (Action.call toolbox .ffmpeg ["-version"]) :=
      yields_of_late (yields_call_of_failsAsTool honest _ _)
    exact called.bind fun _ _ => Action.yields_pure trivial
  unfold makeAll
  rw [sized]
  change Action.Yields met _ _ (if _ then _ else _)
  split
  · exact yields_makeParts valid honest schedule size
  · exact answered.bind fun _ _ => yields_makeParts valid honest schedule size

/-- **A whole job** that has been accepted. -/
theorem yields_process (accepted : settings.validate = .ok ())
    (acceptedProject : order.project.validate = .ok ()) (honest : toolbox.FailsAsTool)
    (schedule : Schedule) :
    Action.Yields met (Accounted order met) (fun _ => True)
      (process settings toolbox order schedule) := by
  have valid := Project.valid_of_validate acceptedProject
  have asked : Action.Yields met (Accounted order met) (fun _ => True)
      (Action.ask (·.absolute (settings.root / .ofText order.id))) :=
    Action.yields_ask fun _ _ => trivial
  unfold process
  rw [accepted, acceptedProject]
  refine asked.bind fun directory _ => ?_
  refine (Action.yields_provideDirectory accounted_io directory).bind fun _ _ => ?_
  refine (Action.yields_post _).bind fun _ _ => ?_
  refine ((yields_makeAll valid honest schedule).attempt _).bind fun outcome yielded => ?_
  cases outcome with
  | ok made => exact Action.yields_pure trivial
  | error failure =>
      have cleared : Action.Yields met (Accounted order met) (fun _ => True)
          (clearAway directory) := by
        refine Action.yields_step fun w _ => ?_
        split
        · exact trivial
        · exact trivial
      dsimp only
      split
      · exact cleared.bind fun _ _ => Action.yields_throw yielded
      · exact Action.yields_throw yielded

end Branches

theorem Accounted.ne_settings {failure : Failure} (accounted : Accounted order met failure)
    (fault : SettingsFault) : failure ≠ .settings fault := by
  rintro rfl
  rcases accounted with late | ⟨cause, other, _⟩
  · cases late
  · cases other

theorem Accounted.excuse {cause : Refusal} (accounted : Accounted order met (.invalidInput cause)) :
    Excuse order met cause := by
  rcases accounted with late | ⟨other, same, excuse⟩
  · cases late
  · cases same
    exact excuse

end Job

end Late

namespace Job

/-- **Checking beforehand is enough.**  If the settings and the project are accepted and calls fail
in the ways of tools only, then in whatever way the branches take turns, on whatever disk, neither
the frames and the playlist nor the subtitles are refused, the sound is refused for one of its
tracks only, and the job as a whole never blames the settings; and if it refuses the input, there is
an excuse for that. -/
theorem refusals_of_accepted (settings : Settings) (toolbox : Toolbox) (order : Order)
    (accepted : settings.validate = .ok ()) (acceptedProject : order.project.validate = .ok ())
    (honest : toolbox.FailsAsTool) :
    (∀ crew style words directory steps failure,
      Action.Ends (makeVisuals settings order crew style words directory) steps (.error failure) →
        IsLate failure) ∧
    (∀ words size directory steps failure,
      Action.Ends (makeSubtitles settings words size directory) steps (.error failure) →
        IsLate failure) ∧
    (∀ directory steps failure,
      Action.Ends
          (makeSound settings toolbox (order.project.tracks order.base) order.project.duration
            directory) steps (.error failure) →
        Accounted order (fun w => ∃ step ∈ steps, step.1 = w) failure) ∧
    ∀ schedule w w' failure,
      Action.perform (process settings toolbox order schedule) w = (.error failure, w') →
        (∀ fault, failure ≠ .settings fault) ∧
          ∀ cause, failure = .invalidInput cause →
            Excuse order (Action.Meets (process settings toolbox order schedule) w) cause := by
  have valid := Project.valid_of_validate acceptedProject
  refine ⟨?_, ?_, ?_, ?_⟩
  · intro crew style words directory steps failure ends
    have late : Action.Yields (fun _ => True) IsLate (fun _ => True)
        (makeVisuals settings order crew style words directory) :=
      yields_makeVisuals valid crew style words
    exact late steps _ ends fun _ _ => trivial
  · intro words size directory steps failure ends
    have late : Action.Yields (fun _ => True) IsLate (fun _ => True)
        (makeSubtitles settings words size directory) :=
      yields_makeSubtitles words size
    exact late steps _ ends fun _ _ => trivial
  · intro directory steps failure ends
    have accounted : Action.Yields _ (Accounted order fun w => ∃ step ∈ steps, step.1 = w)
        (fun _ => True)
        (makeSound settings toolbox (order.project.tracks order.base) order.project.duration
          directory) :=
      yields_makeSound honest valid.length
    exact accounted steps _ ends fun step member => ⟨step, member, rfl⟩
  · intro schedule w w' failure failed
    have accounted :=
      (yields_process accepted acceptedProject honest schedule).perform.reason
        (congrArg Prod.fst failed)
    refine ⟨accounted.ne_settings, ?_⟩
    rintro cause rfl
    exact accounted.excuse

theorem isOfTool_making {text : String} {arguments : List String} {d : Disk}
    {result : Except Failure ToolOutput} {failure : Failure}
    (honest : ∀ other, result = .error other → other.isOfTool = true)
    (failed : (Rehearsal.making text arguments d result).1 = .error failure) :
    failure.isOfTool = true := by
  unfold Rehearsal.making at failed
  split at failed
  · exact honest failure failed
  · cases failed
    rfl

/-- A rehearsal fails as tools do, however it answers. -/
theorem failsAsTool_rehearsal (r : Rehearsal) : r.toolbox.FailsAsTool := by
  intro calls call d failure failed
  unfold Rehearsal.toolbox at failed
  split at failed
  · cases failed
    rfl
  · split at failed
    · cases failed
    · split at failed
      · cases failed
      · cases manner : r.manner with
        | succeed =>
            simp only [manner] at failed
            refine isOfTool_making (fun other same => ?_) failed
            cases same
        | succeedSilently =>
            simp only [manner] at failed
            cases failed
        | failAlways =>
            simp only [manner] at failed
            refine isOfTool_making (fun other same => ?_) failed
            cases same
        | failBefore =>
            simp only [manner] at failed
            cases failed
            rfl
        | failAfter =>
            simp only [manner] at failed
            refine isOfTool_making (fun other same => ?_) failed
            cases same
            rfl
        | timeout =>
            simp only [manner] at failed
            refine isOfTool_making (fun other same => ?_) failed
            cases same
            rfl

/-- A job whose sound is a picture. -/
def mutedReel : Order :=
  { reel with project := { reel.project with sounds := [{ source := "one.png" }] } }

/-- The settings and the project are accepted, and yet the job is refused, since a picture is met
where a sound should be. -/
theorem refusals_of_mutedReel :
    let toolbox := Rehearsal.toolbox {}
    Settings.validate {} = .ok () ∧ mutedReel.project.validate = .ok () ∧
      (Action.perform (process {} toolbox mutedReel {}) studio).1 =
        .error (.invalidInput (.audioFormat ⟨"/work/one.png"⟩)) ∧
      Excuse mutedReel (Action.Meets (process {} toolbox mutedReel {}) studio)
        (.audioFormat ⟨"/work/one.png"⟩) := by
  intro toolbox
  have run : Settings.validate {} = .ok () ∧ mutedReel.project.validate = .ok () ∧
      (Action.perform (process {} toolbox mutedReel {}) studio).1 =
        .error (.invalidInput (.audioFormat ⟨"/work/one.png"⟩)) := by
    decide +kernel
  obtain ⟨accepted, acceptedProject, failed⟩ := run
  obtain ⟨_, _, _, refused⟩ :=
    refusals_of_accepted {} toolbox mutedReel accepted acceptedProject (failsAsTool_rehearsal {})
  obtain ⟨_, excused⟩ := refused {} studio _ _ (Prod.ext failed rfl)
  exact ⟨accepted, acceptedProject, failed, excused _ rfl⟩

end Job

end Slidecast
