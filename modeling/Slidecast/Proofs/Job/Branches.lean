import Slidecast.Proofs.Job.Names
import Slidecast.Proofs.Job.Site
import Slidecast.Proofs.Tool.Careful

/-!
# What the branches of a job secure

Each branch of a job touches only the files with its own names, also when it fails, and if it
succeeds, leaves these files in the directory of the job.  The calls of a careful tool keep to
this as well; where only the calls that succeed are careful, a branch that fails is excused.
-/

set_option autoImplicit false

namespace Slidecast

open Files Number Speech

namespace Job

variable {directory : Path} {site : Site directory} {names : String → Prop} {strict : Prop}
  {α : Type} {w : World}

/-! ## Steps at a site -/

/-- A step that does not change the disk. -/
theorem secures_still {f : World → Except Failure α × World}
    (still : ∀ w, (f w).2.disk = w.disk) :
    Action.Secures (site.terms names) Action.Never (Action.step f) (fun _ _ => True) w := by
  refine Action.secures_step fun w' _ _ => .inr ⟨?_, fun _ _ _ _ _ => trivial⟩
  show site.Alters names w'.disk (f w').2.disk
  rw [still]
  exact .refl names _

theorem secures_ask (question : Disk → α) :
    Action.Secures (site.terms names) Action.Never (Action.ask question) (fun _ _ => True) w :=
  secures_still fun _ => rfl

theorem secures_post (change : Progress.Board → Progress.Board) :
    Action.Secures (site.terms names) Action.Never (Action.post change) (fun _ _ => True) w :=
  secures_still fun _ => rfl

theorem secures_provideDirectory :
    Action.Secures (site.terms names) Action.Never (Action.provideDirectory directory)
      (fun _ _ => True) w := by
  refine Action.secures_step fun w' _ holds => .inr ⟨?_, fun _ _ _ _ _ => trivial⟩
  show site.Alters names w'.disk (w'.disk.provideDirectory directory).2
  have there : site.Holds w'.disk := holds
  rw [there.provideDirectory]
  exact .refl names _

theorem secures_write {name : String} (isName : Path.IsName name) (own : names name)
    (content : Content) :
    Action.Secures (site.terms names) Action.Never
      (Action.changeDisk (·.write (directory / ⟨name⟩) content))
      (fun _ w => site.Stores w.disk name content) w := by
  refine Action.secures_step fun w' _ holds => .inr ?_
  split
  · next disk wrote =>
      have changed := Site.Holds.write holds isName own wrote
      refine ⟨changed.1, fun _ _ => ?_⟩
      exact (Site.about_stores isName own).lasts (Site.Holds.of_alters holds changed.1) changed.2
  · exact ⟨.refl names _, fun _ same => nomatch same⟩

/-- A check gives what is checked. -/
theorem secures_check {terms : Task.Terms World} (result : Except Failure α) :
    Action.Secures terms Action.Never (Action.check result) (fun a _ => result = .ok a) w :=
  Action.secures_check fun _ same _ _ _ => same

/-- An action that fails at once. -/
theorem secures_throw_bind {β : Type} {terms : Task.Terms World} {excuse : Except Failure β → Prop}
    {post : β → World → Prop} (failure : Failure) (next : α → Action β) :
    Action.Secures terms excuse (throw failure >>= next) post w :=
  Action.secures_throw failure

/-- What a task secures with some names, it secures with more. -/
theorem secures_widen {few : String → Prop} {excuse : Except Failure α → Prop}
    {action : Action α} {post : α → World → Prop}
    (secures : Action.Secures (site.terms few) excuse action post w)
    (inside : ∀ name, few name → names name) (holds : site.Holds w.disk) :
    Action.Secures (site.terms names) excuse action post w := by
  have about : site.About (fun _ => False) fun _ => True := fun _ _ _ _ _ _ => trivial
  refine (Site.secures_frame secures about inside ?_ ?_ holds trivial).mono ?_
  · exact fun _ never => never.elim
  · exact fun _ never => never.elim
  · exact fun _ _ _ both => both.1

/-- A step that does not change the disk, and what follows. -/
theorem secures_still_bind {β : Type} {excuse : Except Failure β → Prop}
    {f : World → Except Failure α × World} {next : α → Action β} {goal : β → World → Prop}
    {fact : World → Prop} (still : ∀ w, (f w).2.disk = w.disk) (about : site.About names fact)
    (holds : site.Holds w.disk) (now : fact w)
    (follows : ∀ a w, site.Holds w.disk → fact w →
      Action.Secures (site.terms names) excuse (next a) goal w) :
    Action.Secures (site.terms names) excuse (Action.step f >>= next) goal w := by
  have still_step : Action.Secures (site.terms fun _ => False) Action.Never (Action.step f)
      (fun _ _ => True) w := secures_still still
  have framed := Site.secures_frame still_step about (fun _ never => never.elim)
    (fun _ own => own) (fun _ _ none => none) holds now
  exact framed.bind_never holds fun a w' holds' lasts =>
    follows a w' holds' (lasts.now holds').2

/-! ## Frames -/

/-- A file of a task is kept at a path. -/
def Has (site : Site directory) (names : String → Prop) (d : Disk) (target : Path) : Prop :=
  ∃ name content, names name ∧ Path.IsName name ∧ target = directory / ⟨name⟩ ∧
    site.Stores d name content

theorem Has.hasFile {d : Disk} {target : Path} (has : Has site names d target) :
    d.hasFile target = true := by
  obtain ⟨name, content, _, isName, rfl, stores⟩ := has
  exact stores.hasFile isName

theorem about_has (target : Path) : site.About names fun w => Has site names w.disk target := by
  rintro w w' holds later same ⟨name, content, own, isName, here, stores⟩
  exact ⟨name, content, own, isName, here, stores.of_lookup_eq isName holds later (same name own)⟩

/-- Making a frame changes its file alone, keeps the frames that are there, and leaves a file if
it succeeds. -/
theorem makeFrame_spec {name : String} {d : Disk} (holds : site.Holds d)
    (isName : Path.IsName name) (own : names name) (room : Picture.Darkroom)
    (style : Picture.FrameStyle) (source : Path) :
    site.Alters names d (Picture.makeFrame room style source (directory / ⟨name⟩) d).2 ∧
      (∀ target, Has site names d target →
        Has site names (Picture.makeFrame room style source (directory / ⟨name⟩) d).2 target) ∧
      ((Picture.makeFrame room style source (directory / ⟨name⟩) d).1 = .ok () →
        Has site names (Picture.makeFrame room style source (directory / ⟨name⟩) d).2
          (directory / ⟨name⟩)) := by
  have nothing : ∀ failure : Failure,
      site.Alters names d d ∧ (∀ target, Has site names d target → Has site names d target) ∧
        ((Except.error failure : Except Failure Unit) = .ok () →
          Has site names d (directory / ⟨name⟩)) :=
    fun _ => ⟨.refl names d, fun _ has => has, fun same => nomatch same⟩
  unfold Picture.makeFrame
  split
  · split
    · exact nothing _
    · split
      · exact nothing _
      · unfold Picture.storeFrame
        simp only []
        split
        · exact nothing _
        · next d' wrote =>
            obtain ⟨alters, stores⟩ := holds.write isName own wrote
            have later := holds.of_alters alters
            refine ⟨alters, ?_, fun _ => ⟨name, _, own, isName, rfl, stores⟩⟩
            rintro target ⟨other, content, ownOther, isNameOther, rfl, storesOther⟩
            by_cases same : other = name
            · subst same
              exact ⟨other, _, own, isName, rfl, stores⟩
            · have single := (holds.write isName (Eq.refl name) wrote).1
              have left := storesOther.of_lookup_eq isNameOther holds later
                (single.lookup_eq (Ne.symm same))
              exact ⟨other, content, ownOther, isNameOther, rfl, left⟩
  · exact nothing _

/-- The files of a task are kept at all of the given paths. -/
def AllHave (site : Site directory) (names : String → Prop) (targets : List Path) (w : World) :
    Prop :=
  ∀ target ∈ targets, Has site names w.disk target

theorem about_allHave (targets : List Path) : site.About names (AllHave site names targets) :=
  fun _ _ holds later same kept target member =>
    about_has target holds later same (kept target member)

/-- The path of a file with a name of a task. -/
def Owns (directory : Path) (names : String → Prop) (target : Path) : Prop :=
  ∃ name, names name ∧ Path.IsName name ∧ target = directory / ⟨name⟩

/-- Frames that are there stay, and a frame that is made is there too. -/
theorem secures_renderFrame {target : Path} (owns : Owns directory names target)
    (room : Picture.Darkroom) (style : Picture.FrameStyle) (source : Path) {made : List Path}
    (holds : site.Holds w.disk) (now : AllHave site names made w) :
    Action.Secures (site.terms names) Action.Never (Picture.renderFrame room style source target)
      (fun _ => AllHave site names (target :: made)) w := by
  obtain ⟨name, own, isName, rfl⟩ := owns
  refine Action.secures_step fun w' rely holds' => .inr ?_
  have there := (about_allHave made).lasts holds now w' rely holds'
  obtain ⟨alters, keeps, makes⟩ := makeFrame_spec holds' isName own room style source
  refine ⟨alters, fun _ same => ?_⟩
  refine (about_allHave _).lasts (Site.Holds.of_alters holds' alters) fun target member => ?_
  rcases List.mem_cons.1 member with rfl | earlier
  · exact makes same
  · exact keeps target (there target earlier)

/-- An attempt of which no failure is excused, and what follows. -/
theorem secures_attempt_bind {terms : Task.Terms World} {β : Type}
    {excuse : Except Failure β → Prop} {action : Action α} {post : α → World → Prop}
    {next : Except Failure α → Action β} {goal : β → World → Prop}
    (secures : Action.Secures terms Action.Never action post w) (base : terms.base w)
    (succeeds : ∀ a w, terms.base w → post a w → Action.Secures terms excuse (next (.ok a)) goal w)
    (fails : ∀ failure w, terms.base w →
      Action.Secures terms excuse (next (.error failure)) goal w) :
    Action.Secures terms excuse (Action.attempt action >>= next) goal w := by
  refine (secures.attempt base).bind base ?_ fun outcome w base lasts => ?_
  · rintro result ⟨_, _, never⟩
    exact never.elim
  · cases outcome with
    | ok a => exact succeeds a w base (lasts.now base a rfl)
    | error failure => exact fails failure w base

/-- Pictures that are still finished touch only their own frames. -/
theorem secures_finish (room : Picture.Darkroom) (style : Picture.FrameStyle)
    {jobs : List Picture.Job} (owns : ∀ job ∈ jobs, Owns directory names job.target)
    (holds : site.Holds w.disk) :
    Action.Secures (site.terms names) Action.Never (Picture.finish room style jobs)
      (fun _ _ => True) w := by
  induction jobs generalizing w with
  | nil => exact Action.secures_pure fun _ _ _ => trivial
  | cons job jobs ih =>
      have rest : ∀ other ∈ jobs, Owns directory names other.target :=
        fun other member => owns other (List.mem_cons_of_mem job member)
      have nothing : AllHave site names [] w := fun _ absent => absurd absent List.not_mem_nil
      have first := secures_renderFrame (owns job List.mem_cons_self) room style job.source holds
        nothing
      refine secures_attempt_bind first holds (fun _ w' holds' _ => ih rest holds') ?_
      intro failure w' holds'
      refine (ih rest holds').bind_never holds' fun others w'' _ _ => ?_
      exact Action.secures_pure fun _ _ _ => trivial

/-- If no picture fails, all frames are there. -/
theorem secures_workOn (room : Picture.Darkroom) (style : Picture.FrameStyle) (inFlight : Nat)
    {jobs : List Picture.Job} (owns : ∀ job ∈ jobs, Owns directory names job.target)
    {made : List Path} (holds : site.Holds w.disk) (now : AllHave site names made w) :
    Action.Secures (site.terms names) Action.Never (Picture.workOn room style inFlight jobs)
      (fun failures w => failures = [] →
        AllHave site names (made ++ jobs.map Picture.Job.target) w) w := by
  induction jobs generalizing made w with
  | nil =>
      refine Action.secures_pure fun w' rely holds' _ => ?_
      simpa using (about_allHave made).lasts holds now w' rely holds'
  | cons job jobs ih =>
      have rest : ∀ other ∈ jobs, Owns directory names other.target :=
        fun other member => owns other (List.mem_cons_of_mem job member)
      have first := secures_renderFrame (owns job List.mem_cons_self) room style job.source holds now
      refine secures_attempt_bind first holds ?_ ?_
      · intro _ w' holds' there
        refine (ih rest holds' there).mono fun failures w'' _ all empty target member => ?_
        refine all empty target ?_
        simp only [List.map_cons, List.mem_append, List.mem_cons] at member ⊢
        tauto
      · -- a picture has failed: the others are finished, and the failure is told
        intro failure w' holds'
        have inFlightOwn : ∀ other ∈ jobs.take inFlight, Owns directory names other.target :=
          fun other member => rest other (List.mem_of_mem_take member)
        have finished := secures_finish room style inFlightOwn holds'
        refine finished.bind_never holds' fun others w'' _ _ => ?_
        exact Action.secures_pure fun _ _ _ none => nomatch none

theorem eq_nil_of_firstFailure {failures : List (Nat × Failure)}
    (absent : Picture.firstFailure failures = none) : failures = [] := by
  cases failures with
  | nil => rfl
  | cons first others =>
      rw [Picture.firstFailure] at absent
      split at absent
      · split at absent <;> cases absent
      · cases absent

/-- The frames of a batch are owned by whoever has the names of frames. -/
theorem owns_of_mem_jobs {crew : Picture.Crew} {sources : List Path} {job : Picture.Job}
    (member : job ∈ Picture.jobs crew sources directory) : Owns directory IsFrame job.target := by
  obtain ⟨number, _, made⟩ := List.mem_filterMap.1 member
  obtain ⟨source, _, rfl⟩ := Option.map_eq_some_iff.1 made
  exact ⟨Picture.frameName number, ⟨number, rfl⟩, isName_frameName number, rfl⟩

theorem owns_of_mem_targets {count : Nat} {target : Path}
    (member : target ∈ Picture.targets directory count) : Owns directory IsFrame target := by
  obtain ⟨index, _, here⟩ := List.mem_map.1 member
  exact ⟨Picture.frameName index, ⟨index, rfl⟩, isName_frameName index, here.symm⟩

theorem mem_sequence {crew : Picture.Crew} {count number : Nat} (below : number < count) :
    number ∈ crew.sequence count := by
  rw [Picture.Crew.sequence, List.mem_eraseDups]
  exact List.mem_append_right _ (List.mem_range.2 below)

/-- Whatever the order of a crew, every frame of a batch is made. -/
theorem mem_targets_of_jobs {crew : Picture.Crew} {sources : List Path} {target : Path}
    (member : target ∈ Picture.targets directory sources.length) :
    target ∈ (Picture.jobs crew sources directory).map Picture.Job.target := by
  obtain ⟨number, inside, here⟩ := List.mem_map.1 member
  have below : number < sources.length := List.mem_range.1 inside
  let job : Picture.Job := ⟨number, sources[number], directory / ⟨Picture.frameName number⟩⟩
  refine List.mem_map.2 ⟨job, List.mem_filterMap.2 ⟨number, mem_sequence below, ?_⟩, here⟩
  rw [List.getElem?_eq_getElem below]
  rfl

theorem secures_work (style : Picture.FrameStyle) (crew : Picture.Crew) (sources : List Path)
    (holds : site.Holds w.disk) :
    Action.Secures (site.terms IsFrame) Action.Never (Picture.work style crew sources directory)
      (fun _ => AllHave site IsFrame (Picture.targets directory sources.length)) w := by
  have nothing : AllHave site IsFrame [] w := fun _ absent => absurd absent List.not_mem_nil
  refine (secures_workOn crew.darkroom style crew.inFlight (fun job => owns_of_mem_jobs) holds
    nothing).bind_never holds fun failures w' holds' lasts => ?_
  split
  · exact Action.secures_throw _
  · next absent =>
      refine Action.secures_pure (lasts.mono fun w'' _ all target member => ?_)
      exact all (eq_nil_of_firstFailure absent) target (mem_targets_of_jobs member)

theorem secures_makeFrames (style : Picture.FrameStyle) (crew : Picture.Crew)
    (sources : List Path) (holds : site.Holds w.disk) :
    Action.Secures (site.terms IsFrame) Action.Never
      (Picture.makeFrames style crew sources directory)
      (fun frames w => frames = Picture.targets directory sources.length ∧
        AllHave site IsFrame frames w) w := by
  unfold Picture.makeFrames
  dsimp only
  split
  · exact secures_throw_bind _ _
  · refine secures_provideDirectory.bind_never holds fun _ w₁ holds₁ _ => ?_
    have discards : ∀ w₂ : World, site.Holds w₂.disk → site.Alters IsFrame w₂.disk
        ((Provisional.mk (Picture.targets directory sources.length)).discard w₂.disk).2 :=
      fun w₂ holds₂ => holds₂.removeAll fun p => owns_of_mem_targets
    have worked := secures_work style crew sources holds₁
    refine (worked.keeping holds₁ discards).bind_never holds₁ fun _ w₂ holds₂ lasts => ?_
    exact Action.secures_pure (lasts.mono fun _ _ all => ⟨rfl, all⟩)

/-! ## Visuals and subtitles -/

/-- The playlist that goes with the frames of a job. -/
def playlistText (settings : Settings) (order : Order) (words : Transcript) (frames : List Path) :
    String :=
  Slideshow.playlist (Slideshow.slidesOf words settings.fallback order.project.markers frames)

/-- A text that is kept in the directory is there afterwards. -/
theorem secures_keep {name : String} (isName : Path.IsName name) (own : names name) (text : String)
    (holds : site.Holds w.disk) :
    Action.Secures (site.terms names) Action.Never
      (do
        Action.provideDirectory directory
        Action.changeDisk (·.write (directory / ⟨name⟩) (.text text))
        pure (directory / ⟨name⟩))
      (fun path w => path = directory / ⟨name⟩ ∧ site.Stores w.disk name (.text text)) w := by
  refine secures_provideDirectory.bind_never holds fun _ w₁ holds₁ _ => ?_
  refine (secures_write isName own (.text text)).bind_never holds₁ fun _ w₂ _ lasts => ?_
  exact Action.secures_pure (lasts.mono fun _ _ stores => ⟨rfl, stores⟩)

theorem secures_keepPlaylist (words : Transcript) (fallback : Double) (markers : List String)
    (frames : List Path) (holds : site.Holds w.disk) :
    Action.Secures (site.terms IsPlaylist) Action.Never
      (Slideshow.keepPlaylist words fallback markers frames directory)
      (fun path w => path = directory / ⟨Slideshow.playlistName⟩ ∧
        site.Stores w.disk Slideshow.playlistName
          (.text (Slideshow.playlist (Slideshow.slidesOf words fallback markers frames)))) w := by
  unfold Slideshow.keepPlaylist
  dsimp only
  split
  · exact secures_throw_bind _ _
  · have own : IsPlaylist Slideshow.playlistName := rfl
    exact secures_keep isName_playlistName own _ holds

theorem secures_keepScript (words : Transcript) (style : Subtitle.Style) (width height : Nat)
    (holds : site.Holds w.disk) :
    Action.Secures (site.terms IsSubtitles) Action.Never
      (Subtitle.keepScript words style width height directory)
      (fun path w => path = directory / ⟨Subtitle.scriptName⟩ ∧
        site.Stores w.disk Subtitle.scriptName
          (.text (Subtitle.scriptOf words style width height))) w := by
  have own : IsSubtitles Subtitle.scriptName := rfl
  exact secures_keep isName_scriptName own _ holds

/-- What the visuals leave: the frames in their order, and the playlist that goes with them. -/
structure VisualsMade (site : Site directory) (settings : Settings) (order : Order)
    (words : Transcript) (made : List Path × Path) (w : World) : Prop where
  frames : made.1 = Picture.targets directory (order.project.picturePaths order.base).length
  allHave : AllHave site IsFrame made.1 w
  playlist : made.2 = directory / ⟨Slideshow.playlistName⟩
  stores : site.Stores w.disk Slideshow.playlistName
    (.text (playlistText settings order words made.1))

theorem about_visualsMade (settings : Settings) (order : Order) (words : Transcript)
    (made : List Path × Path) :
    site.About IsVisual (VisualsMade site settings order words made) := by
  intro w w' holds later same visuals
  refine ⟨visuals.frames, ?_, visuals.playlist, ?_⟩
  · exact about_allHave made.1 holds later (fun name own => same name (.inl own)) visuals.allHave
  · exact Site.about_stores isName_playlistName (.inr rfl) holds later same visuals.stores

theorem secures_makeVisuals (settings : Settings) (order : Order) (crew : Picture.Crew)
    (style : Picture.FrameStyle) (words : Transcript) (holds : site.Holds w.disk) :
    Action.Secures (site.terms IsVisual) Action.Never
      (makeVisuals settings order crew style words directory)
      (VisualsMade site settings order words) w := by
  refine (secures_post _).bind_never holds fun _ w₁ holds₁ _ => ?_
  have framesMade : Action.Secures (site.terms IsVisual) Action.Never
      (Picture.makeFrames style crew (order.project.picturePaths order.base) directory) _ w₁ :=
    secures_widen (secures_makeFrames style crew _ holds₁) (fun _ => .inl) holds₁
  refine framesMade.bind_never holds₁ fun frames w₂ holds₂ lasts₂ => ?_
  obtain ⟨named, allHave⟩ := lasts₂.now holds₂
  have about : site.About IsVisual (AllHave site IsFrame frames) :=
    fun w w' holds later same =>
      about_allHave frames holds later fun name own => same name (.inl own)
  refine secures_still_bind (fun _ => rfl) about holds₂ allHave fun _ w₃ holds₃ allHave₃ => ?_
  refine secures_still_bind (fun _ => rfl) about holds₃ allHave₃ fun _ w₄ holds₄ allHave₄ => ?_
  have playlistMade : Action.Secures (site.terms IsVisual) Action.Never
      (Slideshow.keepPlaylist words settings.fallback order.project.markers frames directory) _
      w₄ :=
    Site.secures_frame (secures_keepPlaylist words settings.fallback order.project.markers frames
      holds₄) (about_allHave frames) (fun _ => .inr) (fun _ => .inl)
      (fun _ => not_isPlaylist_of_isFrame) holds₄ allHave₄
  refine playlistMade.bind_never holds₄ fun playlist w₅ holds₅ lasts₅ => ?_
  obtain ⟨⟨here, stores⟩, allHave₅⟩ := lasts₅.now holds₅
  have visuals : VisualsMade site settings order words (frames, playlist) w₅ :=
    ⟨named, allHave₅, here, stores⟩
  have aboutAll : site.About IsVisual (VisualsMade site settings order words (frames, playlist)) :=
    about_visualsMade settings order words (frames, playlist)
  refine secures_still_bind (fun _ => rfl) aboutAll holds₅ visuals fun _ w₆ holds₆ visuals₆ => ?_
  exact Action.secures_pure (aboutAll.lasts holds₆ visuals₆)

/-- What the subtitles leave. -/
def SubtitlesMade (site : Site directory) (settings : Settings) (words : Transcript)
    (size : FrameSize) (path : Path) (w : World) : Prop :=
  path = directory / ⟨Subtitle.scriptName⟩ ∧
    site.Stores w.disk Subtitle.scriptName
      (.text (Subtitle.scriptOf words settings.subtitles size.width size.height))

theorem about_subtitlesMade (settings : Settings) (words : Transcript) (size : FrameSize)
    (path : Path) : site.About IsSubtitles (SubtitlesMade site settings words size path) := by
  have own : IsSubtitles Subtitle.scriptName := rfl
  intro w w' holds later same made
  exact ⟨made.1, Site.about_stores isName_scriptName own holds later same made.2⟩

theorem secures_makeSubtitles (settings : Settings) (words : Transcript) (size : FrameSize)
    (holds : site.Holds w.disk) :
    Action.Secures (site.terms IsSubtitles) Action.Never
      (makeSubtitles settings words size directory) (SubtitlesMade site settings words size) w := by
  refine (secures_post _).bind_never holds fun _ w₁ holds₁ _ => ?_
  refine (secures_keepScript words settings.subtitles size.width size.height holds₁).bind_never
    holds₁ fun path w₂ holds₂ lasts₂ => ?_
  have about : site.About IsSubtitles (SubtitlesMade site settings words size path) :=
    about_subtitlesMade settings words size path
  refine secures_still_bind (fun _ => rfl) about holds₂ (lasts₂.now holds₂)
    fun _ w₃ holds₃ made => ?_
  exact Action.secures_pure (about.lasts holds₃ made)

/-! ## Sound -/

/-- Results that count are all of them on strict terms, and those of successes otherwise. -/
def Counts (strict : Prop) (result : Except Failure ToolOutput) : Prop :=
  strict ∨ ∃ output, result = .ok output

/-- A call that does not count is excused. -/
theorem lapse_of_not_counts {result : Except Failure ToolOutput} (not : ¬ Counts strict result) :
    Action.Lapse strict result := by
  cases result with
  | ok output => exact absurd (.inr ⟨output, rfl⟩) not
  | error failure => exact ⟨fun isStrict => not (.inl isStrict), failure, rfl⟩

/-- What jobs rely on: the calls that count are careful, and those that have to make a file
do so. -/
structure Trusted (strict : Prop) (toolbox : Toolbox) : Prop where
  careful : toolbox.CarefulWhen (Counts strict)
  leaves : ¬ strict → toolbox.Reliable

/-- A file of a task is kept at a path, if calls can be trusted to make it and if they can be told
where. -/
def SoundMade (site : Site directory) (strict : Prop) (path : Path) (w : World) : Prop :=
  Owns directory IsSound path ∧ (¬ strict → path.IsText → Has site IsSound w.disk path)

theorem about_soundMade (path : Path) : site.About IsSound (SoundMade site strict path) :=
  fun _ _ holds later same made =>
    ⟨made.1, fun loose text => about_has path holds later same (made.2 loose text)⟩

/-- A call that makes sound touches only its file and leaves it there, or is excused. -/
theorem secures_call {toolbox : Toolbox} (trusted : Trusted strict toolbox)
    {arguments : List String} {output : Path} (makes : Audio.Makes arguments output.asShown)
    (owns : Owns directory IsSound output) :
    Action.Secures (site.terms IsSound) (Action.Lapse strict)
      (Action.call toolbox .ffmpeg arguments) (fun _ => SoundMade site strict output) w := by
  refine Action.secures_step fun w' _ holds => ?_
  have whole : site.Holds w'.disk := holds
  by_cases counts : Counts strict (toolbox w'.calls ⟨.ffmpeg, arguments⟩ w'.disk).1
  · right
    obtain ⟨name, own, isName, here⟩ := owns
    have touches := trusted.careful.making _ _ _ _ makes counts
    rw [here] at touches
    have alters := whole.alters_of_touchesOnly isName (kept_shown_of_isSound own) own touches
    refine ⟨alters, fun result same => ?_⟩
    refine (about_soundMade output).lasts (whole.of_alters alters) ⟨⟨name, own, isName, here⟩, ?_⟩
    intro loose text
    have there := (trusted.leaves loose).leaves _ _ _ _ makes ⟨result, same⟩
    rw [text, here] at there
    rw [here]
    obtain ⟨content, stores⟩ := (whole.of_alters alters).stores_of_hasFile isName there
    exact ⟨name, content, own, isName, rfl, stores⟩
  · exact .inl (lapse_of_not_counts counts)

theorem secures_keeping_call {toolbox : Toolbox} (trusted : Trusted strict toolbox)
    {arguments : List String} {output : Path} (makes : Audio.Makes arguments output.asShown)
    (owns : Owns directory IsSound output) (holds : site.Holds w.disk) :
    Action.Secures (site.terms IsSound) (Action.Lapse strict)
      (Action.keeping (.file output) (Action.call toolbox .ffmpeg arguments))
      (fun _ => SoundMade site strict output) w := by
  refine (secures_call trusted makes owns).keeping holds fun w' holds' => ?_
  have whole : site.Holds w'.disk := holds'
  refine whole.removeAll fun p member => ?_
  rw [List.mem_singleton.1 member]
  exact owns

theorem secures_trim {toolbox : Toolbox} (trusted : Trusted strict toolbox) (source : Path)
    (seconds : Double) {output : Path} (owns : Owns directory IsSound output)
    (holds : site.Holds w.disk) :
    Action.Secures (site.terms IsSound) (Action.Lapse strict)
      (Audio.trim toolbox source seconds output) (SoundMade site strict) w := by
  refine (secures_ask _).bind_never holds fun there w₁ holds₁ _ => ?_
  dsimp only
  split
  · refine (secures_check _).bind_never holds₁ fun _ w₂ holds₂ _ => ?_
    refine (secures_keeping_call trusted (.trim source seconds output) owns holds₂).bind_lapse
      holds₂ fun _ w₃ _ lasts => ?_
    exact Action.secures_pure lasts
  · exact secures_throw_bind _ _

theorem secures_mix {toolbox : Toolbox} (trusted : Trusted strict toolbox) (dropout : Nat)
    (tracks : List Audio.Track) (seconds : Double) {output : Path}
    (owns : Owns directory IsSound output) (holds : site.Holds w.disk) :
    Action.Secures (site.terms IsSound) (Action.Lapse strict)
      (Audio.mix toolbox dropout tracks seconds output) (SoundMade site strict) w := by
  refine (secures_check _).bind_never holds fun _ w₁ holds₁ _ => ?_
  refine (secures_ask _).bind_never holds₁ fun present w₂ holds₂ _ => ?_
  dsimp only
  split
  · exact secures_throw_bind _ _
  · refine (secures_keeping_call trusted (.mix dropout present seconds output) owns
      holds₂).bind_lapse holds₂ fun _ w₃ _ lasts => ?_
    exact Action.secures_pure lasts

theorem owns_ofText {text : String} (ofSound : IsSoundText text) :
    Owns directory IsSound (directory / .ofText text) := by
  have isSound : IsSound (Text.kept text) := ⟨text, ofSound, rfl⟩
  exact ⟨Text.kept text, isSound, isName_of_isSound isSound, rfl⟩

theorem owns_mixName (directory : Path) (seconds : Double) :
    Owns directory IsSound (directory / .ofText (Audio.mixName seconds)) :=
  owns_ofText (.inl ⟨seconds, rfl⟩)

theorem owns_trimName (directory source : Path) (seconds : Double) :
    Owns directory IsSound (directory / .ofText (Audio.trimName source seconds)) :=
  owns_ofText (.inr ⟨source, seconds, rfl⟩)

theorem secures_assembleSound (settings : Settings) {toolbox : Toolbox}
    (trusted : Trusted strict toolbox) (tracks : List Audio.Track) (duration : Double)
    (holds : site.Holds w.disk) :
    Action.Secures (site.terms IsSound) (Action.Lapse strict)
      (assembleSound settings toolbox tracks duration directory) (SoundMade site strict) w := by
  have mixed := secures_mix trusted settings.dropout tracks duration
    (owns_mixName directory duration) holds
  unfold assembleSound
  dsimp only
  split
  · split
    · exact secures_trim trusted _ duration (owns_trimName directory _ duration) holds
    · exact mixed
  · exact mixed

/-- What the sound leaves: a file if there are any tracks. -/
structure SoundLeft (site : Site directory) (strict : Prop) (tracks : List Audio.Track)
    (sound : Option Path) (w : World) : Prop where
  none_iff : sound = none ↔ tracks = []
  made : ∀ path, sound = some path → SoundMade site strict path w

theorem about_soundLeft (tracks : List Audio.Track) (sound : Option Path) :
    site.About IsSound (SoundLeft site strict tracks sound) :=
  fun _ _ holds later same left =>
    ⟨left.none_iff, fun path held => about_soundMade path holds later same (left.made path held)⟩

theorem secures_makeSound (settings : Settings) {toolbox : Toolbox}
    (trusted : Trusted strict toolbox) (tracks : List Audio.Track) (duration : Double)
    (holds : site.Holds w.disk) :
    Action.Secures (site.terms IsSound) (Action.Lapse strict)
      (makeSound settings toolbox tracks duration directory)
      (SoundLeft site strict tracks) w := by
  refine (secures_post _).bind_never holds fun _ w₁ holds₁ _ => ?_
  split
  · next empty =>
      have silent : tracks = [] := List.isEmpty_iff.1 empty
      refine (secures_post _).bind_never holds₁ fun _ w₂ _ _ => ?_
      exact Action.secures_pure fun _ _ _ => ⟨by simp [silent], fun _ made => nomatch made⟩
  · next filled =>
      have sounding : tracks ≠ [] := fun silent => filled (List.isEmpty_iff.2 silent)
      refine (secures_ask _).bind_never holds₁ fun foreign w₂ holds₂ _ => ?_
      cases foreign with
      | some track => exact Action.secures_throw _
      | none =>
          refine (secures_assembleSound settings trusted tracks duration holds₂).bind_lapse holds₂
            fun path w₃ holds₃ lasts₃ => ?_
          refine secures_still_bind (fun _ => rfl) (about_soundMade path) holds₃
            (lasts₃.now holds₃) fun _ w₄ holds₄ made => ?_
          have left : SoundLeft site strict tracks (some path) w₄ := by
            refine ⟨by simp [sounding], fun other same => ?_⟩
            cases same
            exact made
          exact Action.secures_pure ((about_soundLeft tracks (some path)).lasts holds₄ left)

end Job

end Slidecast
