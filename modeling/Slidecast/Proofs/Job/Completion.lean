import Slidecast.Proofs.Job.Branches

/-!
# What a job secures

The three branches of a job have different names, so they secure together what each of them does,
in whatever order they take turns.  The manifest is written when all of them have succeeded, and
then everything that a job delivers is in its directory (`Delivered`).
-/

set_option autoImplicit false

namespace Slidecast

open Files Number Speech

namespace Job

variable {directory : Path} {site : Site directory} {strict : Prop} {w : World}

/-! ## All branches -/

theorem splits_shown :
    Task.Terms.Splits (site.terms IsShown) (site.terms IsVisual) (site.terms IsSubtitles) :=
  Site.splits (fun _ => .inl) (fun _ => .inr) fun _ => not_isSubtitles_of_isVisual

theorem splits_made :
    Task.Terms.Splits (site.terms IsMade) (site.terms IsShown) (site.terms IsSound) :=
  Site.splits (fun _ => .inl) (fun _ => .inr) fun _ => not_isSound_of_isShown

/-- How the branches came out. -/
abbrev Outcomes : Type :=
  (Except Failure (List Path × Path) × Except Failure Path) × Except Failure (Option Path)

/-- What the branches leave, as far as they succeed. -/
structure BranchesMade (site : Site directory) (strict : Prop) (settings : Settings)
    (order : Order) (words : Transcript) (size : FrameSize) (tracks : List Audio.Track)
    (outcomes : Outcomes) (w : World) : Prop where
  visuals : ∀ made, outcomes.1.1 = .ok made → VisualsMade site settings order words made w
  subtitles : ∀ path, outcomes.1.2 = .ok path → SubtitlesMade site settings words size path w
  sound : ∀ sound, outcomes.2 = .ok sound → SoundLeft site strict tracks sound w

/-- The branches are excused if the sound has failed, unless the terms are strict. -/
def BranchesLapse (strict : Prop) (result : Except Failure Outcomes) : Prop :=
  ¬ strict ∧ ((∃ failure, result = .error failure) ∨
    ∃ outcomes failure, result = .ok outcomes ∧ outcomes.2 = .error failure)

/-- **Whatever the order of turns**, each branch leaves what it would leave by itself. -/
theorem secures_branches (settings : Settings) {toolbox : Toolbox}
    (trusted : Trusted strict toolbox) (order : Order) (schedule : Schedule) (size : FrameSize)
    (tracks : List Audio.Track) (words : Transcript) (style : Picture.FrameStyle)
    (holds : site.Holds w.disk) :
    Action.Secures (site.terms IsMade) (BranchesLapse strict)
      (makeBranches settings toolbox order schedule directory size tracks words style)
      (BranchesMade site strict settings order words size tracks) w := by
  have shown := Action.Secures.together splits_shown schedule.subtitleTurns
    (secures_makeVisuals settings order schedule.crew style words holds)
    (secures_makeSubtitles settings words size holds) holds
  have all := Action.Secures.together splits_made schedule.soundTurns shown
    (secures_makeSound settings trusted tracks order.project.duration holds) holds
  refine all.bind holds ?_ ?_
  · -- of an excused end, the sound has failed
    rintro result ⟨⟨first, sound⟩, rfl, ⟨_, _, never | never⟩ | ⟨loose, failure, failed⟩⟩
    · exact never.elim
    · exact never.elim
    · cases first with
      | error other => exact ⟨loose, .inl ⟨other, rfl⟩⟩
      | ok both => exact ⟨loose, .inr ⟨(both, sound), failure, rfl, failed⟩⟩
  · rintro ⟨first, sound⟩ w₁ holds₁ lasts
    cases first with
    | error failure => exact Action.secures_throw failure
    | ok both =>
        refine Action.secures_pure (lasts.mono fun w₂ _ made => ?_)
        have shownMade := made.1 both rfl
        exact ⟨shownMade.1, shownMade.2, made.2⟩

/-! ## The whole -/

/-- What a job delivers, and that all of it is there. -/
structure Delivered (site : Site directory) (strict : Prop) (settings : Settings) (order : Order)
    (words : Transcript) (made : Deliverables) (w : World) : Prop where
  transcript : order.utterance.transcript = .ok words
  wordCount : made.wordCount = words.size
  directory : made.directory = directory
  visuals : VisualsMade site settings order words (made.frames, made.playlist) w
  subtitles : ∃ size, SubtitlesMade site settings words size made.subtitles w
  sound : SoundLeft site strict (order.project.tracks order.base) made.sound w
  manifest : ∃ text, made.manifest = .ok text ∧ site.Stores w.disk manifestName (.text text)

theorem about_branchesMade (settings : Settings) (order : Order) (words : Transcript)
    (size : FrameSize) (tracks : List Audio.Track) (outcomes : Outcomes) :
    site.About IsMade (BranchesMade site strict settings order words size tracks outcomes) := by
  intro w w' holds later same made
  refine ⟨fun visuals succeeded => ?_, fun path succeeded => ?_, fun sound succeeded => ?_⟩
  · exact about_visualsMade settings order words visuals holds later
      (fun name own => same name (.inl (.inl own))) (made.visuals visuals succeeded)
  · exact about_subtitlesMade settings words size path holds later
      (fun name own => same name (.inl (.inr own))) (made.subtitles path succeeded)
  · exact about_soundLeft tracks sound holds later
      (fun name own => same name (.inr own)) (made.sound sound succeeded)

/-- The question for the version leaves everything as it is, or is excused. -/
theorem secures_versionLine {names : String → Prop} {toolbox : Toolbox}
    (trusted : Trusted strict toolbox) (holds : site.Holds w.disk) :
    Action.Secures (site.terms names) (Action.Lapse strict) (versionLine toolbox)
      (fun _ _ => True) w := by
  have called : Action.Secures (site.terms names) (Action.Lapse strict)
      (Action.call toolbox .ffmpeg ["-version"]) (fun _ _ => True) w := by
    refine Action.secures_step fun w' _ _ => ?_
    by_cases counts : Counts strict (toolbox w'.calls ⟨.ffmpeg, ["-version"]⟩ w'.disk).1
    · right
      exact ⟨fun place => .inl (trusted.careful.version _ _ counts place),
        fun _ _ _ _ _ => trivial⟩
    · exact .inl (lapse_of_not_counts counts)
  refine called.bind_lapse holds fun output w₁ _ _ => ?_
  exact Action.secures_pure fun _ _ _ => trivial

/-- What follows the branches when their ends are known. -/
theorem secures_manifest (settings : Settings) (order : Order) {words : Transcript}
    {size : FrameSize} {outcomes : Outcomes} {made : Deliverables}
    (transcript : order.utterance.transcript = .ok words) (wordCount : made.wordCount = words.size)
    (there : made.directory = directory) (frames : outcomes.1.1 = .ok (made.frames, made.playlist))
    (subtitles : outcomes.1.2 = .ok made.subtitles) (sound : outcomes.2 = .ok made.sound)
    (holds : site.Holds w.disk)
    (branches : BranchesMade site strict settings order words size
      (order.project.tracks order.base) outcomes w) :
    Action.Secures (site.terms fun _ => True) (Action.Lapse strict)
      (do
        let manifest ← Action.check made.manifest
        Action.changeDisk (·.write (directory / ⟨manifestName⟩) (.text manifest))
        pure made)
      (fun made w => ∃ words, Delivered site strict settings order words made w) w := by
  have own : IsManifest manifestName := rfl
  cases text : made.manifest with
  | error failure => exact Action.secures_throw failure
  | ok manifest =>
      have written : Action.Secures (site.terms fun _ => True) Action.Never _ _ w :=
        Site.secures_frame (secures_write isName_manifestName own (.text manifest))
          (about_branchesMade settings order words size _ outcomes) (fun _ _ => trivial)
          (fun _ _ => trivial) (fun _ => not_isManifest_of_isMade) holds branches
      refine written.bind_never holds fun _ w₁ holds₁ lasts => ?_
      refine Action.secures_pure (lasts.mono fun w₂ _ both => ⟨words, ?_⟩)
      obtain ⟨stores, branches₂⟩ := both
      exact ⟨transcript, wordCount, there, branches₂.visuals _ frames,
        ⟨size, branches₂.subtitles _ subtitles⟩, branches₂.sound _ sound, manifest, text, stores⟩

theorem secures_makeParts (settings : Settings) {toolbox : Toolbox}
    (trusted : Trusted strict toolbox) (order : Order) (schedule : Schedule) (size : FrameSize)
    (holds : site.Holds w.disk) :
    Action.Secures (site.terms fun _ => True) (Action.Lapse strict)
      (makeParts settings toolbox order schedule directory size (order.project.tracks order.base))
      (fun made w => ∃ words, Delivered site strict settings order words made w) w := by
  refine (secures_post _).bind_never holds fun _ w₁ holds₁ _ => ?_
  refine (secures_check _).bind_never holds₁ fun words w₂ holds₂ lasts₂ => ?_
  have transcript := lasts₂.now holds₂
  refine (secures_post _).bind_never holds₂ fun _ w₃ holds₃ _ => ?_
  refine (secures_check _).bind_never holds₃ fun background w₄ holds₄ _ => ?_
  have branches : Action.Secures (site.terms fun _ => True) _ _ _ w₄ :=
    secures_widen (secures_branches settings trusted order schedule size
      (order.project.tracks order.base) words
      { settings.frame with width := size.width, height := size.height, background := background }
      holds₄) (fun _ _ => trivial) holds₄
  refine branches.bind holds₄ ?_ ?_
  · -- if the sound has failed, the job fails, be it for another branch
    rintro result ⟨loose, ⟨failure, rfl⟩ | ⟨⟨⟨visuals, subtitles⟩, sound⟩, failure, rfl, failed⟩⟩
    · exact ⟨loose, failure, rfl⟩
    · cases failed
      cases visuals with
      | error other => exact ⟨loose, other, rfl⟩
      | ok visuals =>
          cases subtitles with
          | error other => exact ⟨loose, other, rfl⟩
          | ok subtitles => exact ⟨loose, failure, rfl⟩
  · rintro ⟨⟨visuals, subtitles⟩, sound⟩ w₅ holds₅ lasts
    have made := lasts.now holds₅
    cases visuals with
    | error failure => exact Action.secures_throw failure
    | ok visuals =>
        cases subtitles with
        | error failure => exact Action.secures_throw failure
        | ok subtitles =>
            cases sound with
            | error failure => exact Action.secures_throw failure
            | ok sound =>
                exact secures_manifest settings order transcript rfl rfl rfl rfl rfl holds₅ made

/-- **What a job secures in its directory.**  It never touches anything but its own files there,
and if it succeeds, all that it delivers is there. -/
theorem secures_makeAll (settings : Settings) {toolbox : Toolbox}
    (trusted : Trusted strict toolbox) (order : Order) (schedule : Schedule)
    (holds : site.Holds w.disk) :
    Action.Secures (site.terms fun _ => True) (Action.Lapse strict)
      (makeAll settings toolbox order schedule directory)
      (fun made w => ∃ words, Delivered site strict settings order words made w) w := by
  refine (secures_check _).bind_never holds fun size w₁ holds₁ _ => ?_
  dsimp only
  split
  · exact secures_makeParts settings trusted order schedule size holds₁
  · refine (secures_versionLine trusted holds₁).bind_lapse holds₁ fun _ w₂ holds₂ _ => ?_
    exact secures_makeParts settings trusted order schedule size holds₂

end Job

end Slidecast
