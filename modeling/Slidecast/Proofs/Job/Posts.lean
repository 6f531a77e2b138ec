import Slidecast.Job.Basic
import Slidecast.Proofs.Posting

/-!
# What jobs post

Nothing that is done to files posts anything; only the branches of a job and the job itself do.  A
job that succeeds resets the board and posts the start and the completion of every stage, each of
them once: first those of the transcript, then those of the three branches, which take turns
(`Course`).
-/

set_option autoImplicit false

namespace Slidecast

open Files Number Speech Progress Audio
open Slidecast.Action

/-! ## Quiet work -/

namespace Picture

theorem quiet_renderFrame (room : Darkroom) (style : FrameStyle) (source target : Path) :
    Quiet (renderFrame room style source target) := quiet_step fun _ => rfl

theorem quiet_finish (room : Darkroom) (style : FrameStyle) (jobs : List Job) :
    Quiet (finish room style jobs) := by
  induction jobs with
  | nil => exact quiet_pure []
  | cons job jobs ih =>
      refine (quiet_renderFrame room style job.source job.target).attempt.bind fun outcome => ?_
      cases outcome with
      | ok _ => exact ih
      | error failure => exact ih.bind fun _ => quiet_pure _

theorem quiet_workOn (room : Darkroom) (style : FrameStyle) (inFlight : Nat) (jobs : List Job) :
    Quiet (workOn room style inFlight jobs) := by
  induction jobs with
  | nil => exact quiet_pure []
  | cons job jobs ih =>
      refine (quiet_renderFrame room style job.source job.target).attempt.bind fun outcome => ?_
      cases outcome with
      | ok _ => exact ih
      | error failure =>
          exact (quiet_finish room style (jobs.take inFlight)).bind fun _ => quiet_pure _

theorem quiet_work (style : FrameStyle) (crew : Crew) (sources : List Path) (directory : Path) :
    Quiet (work style crew sources directory) := by
  refine (quiet_workOn crew.darkroom style crew.inFlight _).bind fun failures => ?_
  split
  · exact quiet_throw _
  · exact quiet_pure ()

theorem quiet_makeFrames (style : FrameStyle) (crew : Crew) (sources : List Path)
    (directory : Path) : Quiet (makeFrames style crew sources directory) := by
  unfold makeFrames
  dsimp only
  split
  · exact quiet_throw_bind _ _
  · refine (quiet_provideDirectory directory).bind fun _ => ?_
    exact ((quiet_work style crew sources directory).keeping _).bind fun _ => quiet_pure _

end Picture

theorem Slideshow.quiet_keepPlaylist (t : Transcript) (fallback : Double) (markers : List String)
    (pictures : List Path) (directory : Path) :
    Quiet (keepPlaylist t fallback markers pictures directory) := by
  unfold keepPlaylist
  dsimp only
  split
  · exact quiet_throw_bind _ _
  · refine (quiet_provideDirectory directory).bind fun _ => ?_
    exact (quiet_changeDisk _).bind fun _ => quiet_pure _

theorem Subtitle.quiet_keepScript (t : Transcript) (s : Style) (width height : Nat)
    (directory : Path) : Quiet (keepScript t s width height directory) := by
  refine (quiet_provideDirectory directory).bind fun _ => ?_
  exact (quiet_changeDisk _).bind fun _ => quiet_pure _

namespace Audio

theorem quiet_making (toolbox : Toolbox) (arguments : List String) (output : Path) :
    Quiet (Action.keeping (.file output) (Action.call toolbox .ffmpeg arguments)) :=
  (quiet_call toolbox .ffmpeg arguments).keeping _

theorem quiet_trim (toolbox : Toolbox) (source : Path) (seconds : Double) (output : Path) :
    Quiet (trim toolbox source seconds output) := by
  refine (quiet_ask _).bind fun there => ?_
  have cut : Quiet (do
      Action.check (validateLength seconds)
      let _ ← Action.keeping (.file output)
        (Action.call toolbox .ffmpeg (trimArguments source seconds output))
      pure output) :=
    (quiet_check _).bind fun _ => (quiet_making toolbox _ output).bind fun _ => quiet_pure output
  cases there with
  | true => exact cut
  | false => exact quiet_throw_bind _ _

theorem quiet_mix (toolbox : Toolbox) (dropout : Nat) (tracks : List Track) (seconds : Double)
    (output : Path) : Quiet (mix toolbox dropout tracks seconds output) := by
  refine (quiet_check _).bind fun _ => (quiet_ask _).bind fun present => ?_
  split
  · exact quiet_throw_bind _ _
  · exact (quiet_making toolbox _ output).bind fun _ => quiet_pure output

end Audio

theorem quiet_versionLine (toolbox : Toolbox) : Quiet (versionLine toolbox) :=
  (quiet_call toolbox _ _).bind fun _ => quiet_pure _

namespace Job

theorem quiet_assembleSound (settings : Settings) (toolbox : Toolbox) (tracks : List Track)
    (duration : Double) (directory : Path) :
    Quiet (assembleSound settings toolbox tracks duration directory) := by
  unfold assembleSound
  dsimp only
  split
  · split
    · exact Audio.quiet_trim toolbox _ duration _
    · exact Audio.quiet_mix toolbox _ _ duration _
  · exact Audio.quiet_mix toolbox _ _ duration _

theorem quiet_clearAway (directory : Path) : Quiet (clearAway directory) := by
  refine quiet_step fun w => ?_
  split <;> rfl

/-! ## The branches -/

/-- The posts of a stage that is worked on. -/
def postsOf (stage : Stage) (details : String) : List Post :=
  [.start stage, .complete stage details]

theorem tells_makeVisuals (settings : Settings) (order : Order) (crew : Picture.Crew)
    (style : Picture.FrameStyle) (words : Transcript) (directory : Path) :
    (makeVisuals settings order crew style words directory).Tells fun posts _ =>
      ∃ details details', posts = postsOf .pictures details ++ postsOf .playlist details' := by
  refine tells_post_bind (p := .start .pictures) ?_
  refine (Picture.quiet_makeFrames style crew _ directory).bind_tells fun frames => ?_
  refine tells_post_bind (p := .complete .pictures _) ?_
  refine tells_post_bind (p := .start .playlist) ?_
  refine (Slideshow.quiet_keepPlaylist words _ _ frames directory).bind_tells fun playlist => ?_
  refine tells_post_bind (p := .complete .playlist _) ?_
  exact tells_pure ⟨_, _, rfl⟩

theorem tells_makeSubtitles (settings : Settings) (words : Transcript) (size : FrameSize)
    (directory : Path) :
    (makeSubtitles settings words size directory).Tells fun posts _ =>
      ∃ details, posts = postsOf .subtitles details := by
  refine tells_post_bind (p := .start .subtitles) ?_
  refine (Subtitle.quiet_keepScript words _ _ _ directory).bind_tells fun path => ?_
  refine tells_post_bind (p := .complete .subtitles _) ?_
  exact tells_pure ⟨_, rfl⟩

theorem tells_makeSound (settings : Settings) (toolbox : Toolbox) (tracks : List Track)
    (duration : Double) (directory : Path) :
    (makeSound settings toolbox tracks duration directory).Tells fun posts _ =>
      ∃ details, posts = postsOf .audio details := by
  refine tells_post_bind (p := .start .audio) ?_
  split
  · refine tells_post_bind (p := .complete .audio _) ?_
    exact tells_pure ⟨_, rfl⟩
  · refine (quiet_ask _).bind_tells fun foreign => ?_
    cases foreign with
    | some track => exact tells_throw _
    | none =>
        refine (quiet_assembleSound settings toolbox tracks duration directory).bind_tells ?_
        intro path
        refine tells_post_bind (p := .complete .audio _) ?_
        exact tells_pure ⟨_, rfl⟩

/-! ## Branches that take turns -/

/-- The posts of the three branches when all of them succeed, in an order of which no more is known
than that each branch keeps its own. -/
structure Branches (posts : List Post) : Prop where
  visuals : ∃ details details', posts.filter (Post.isAbout [.pictures, .playlist]) =
    postsOf .pictures details ++ postsOf .playlist details'
  subtitles : ∃ details, posts.filter (Post.isAbout [.subtitles]) = postsOf .subtitles details
  sound : ∃ details, posts.filter (Post.isAbout [.audio]) = postsOf .audio details
  within : ∀ post ∈ posts, post.isAbout [.pictures, .playlist, .subtitles, .audio] = true
  length : posts.length = 8

theorem isAbout_of_mem_postsOf {stages : List Stage} {stage : Stage} {details : String} {post : Post}
    (among : post ∈ postsOf stage details) : post.isAbout stages = decide (stage ∈ stages) := by
  simp only [postsOf, List.mem_cons, List.not_mem_nil, or_false] at among
  rcases among with rfl | rfl <;> rfl

/-- The posts of the pictures and the playlist are about given stages if both of these are among
them, and are not if neither is. -/
theorem isAbout_of_mem_visuals {stages : List Stage} {d₁ d₂ : String} {post : Post} {b : Bool}
    (first : decide (.pictures ∈ stages) = b) (second : decide (.playlist ∈ stages) = b)
    (among : post ∈ postsOf .pictures d₁ ++ postsOf .playlist d₂) : post.isAbout stages = b := by
  rcases List.mem_append.1 among with among | among
  · rw [isAbout_of_mem_postsOf among, first]
  · rw [isAbout_of_mem_postsOf among, second]

/-- Branches that take turns, the subtitles with the pictures and both of them with the sound. -/
theorem Branches.of_rows {outer inner : List (Turn × Post)} {d₁ d₂ d₃ d₄ : String}
    (pictures : inner.map Prod.snd = partOf .left outer)
    (visuals : partOf .left inner = postsOf .pictures d₁ ++ postsOf .playlist d₂)
    (subtitles : partOf .right inner = postsOf .subtitles d₃)
    (sound : partOf .right outer = postsOf .audio d₄) : Branches (outer.map Prod.snd) := by
  have ofVisuals : ∀ stages b, decide (.pictures ∈ stages) = b → decide (.playlist ∈ stages) = b →
      ∀ post ∈ partOf .left inner, post.isAbout stages = b :=
    fun stages b first second post among =>
      isAbout_of_mem_visuals first second (visuals ▸ among)
  have ofSubtitles : ∀ stages, ∀ post ∈ partOf .right inner,
      post.isAbout stages = decide (.subtitles ∈ stages) :=
    fun stages post among => isAbout_of_mem_postsOf (subtitles ▸ among)
  have ofSound : ∀ stages, ∀ post ∈ partOf .right outer,
      post.isAbout stages = decide (.audio ∈ stages) :=
    fun stages post among => isAbout_of_mem_postsOf (sound ▸ among)
  have inside : ∀ post ∈ partOf .left outer,
      post ∈ partOf .left inner ∨ post ∈ partOf .right inner :=
    fun post among => mem_partOf_of_mem (pictures ▸ among)
  refine ⟨⟨d₁, d₂, ?_⟩, ⟨d₃, ?_⟩, ⟨d₄, ?_⟩, ?_, ?_⟩
  · rw [filter_map_snd_left (ofSound _), ← pictures, filter_map_snd_left (ofSubtitles _),
      List.filter_eq_self.2 (ofVisuals _ true (by decide) (by decide)), visuals]
  · rw [filter_map_snd_left (ofSound _), ← pictures,
      filter_map_snd_right (ofVisuals _ false (by decide) (by decide)),
      List.filter_eq_self.2 (ofSubtitles _), subtitles]
  · have others : ∀ post ∈ partOf .left outer, post.isAbout [.audio] = false := by
      intro post among
      rcases inside post among with among | among
      · exact ofVisuals _ false (by decide) (by decide) post among
      · exact ofSubtitles _ post among
    rw [filter_map_snd_right others, List.filter_eq_self.2 (ofSound _), sound]
  · intro post among
    rcases mem_partOf_of_mem among with among | among
    · rcases inside post among with among | among
      · exact ofVisuals _ true (by decide) (by decide) post among
      · exact ofSubtitles _ post among
    · exact ofSound _ post among
  · rw [List.length_map, length_eq_parts, ← pictures, List.length_map, length_eq_parts, visuals,
      subtitles, sound]
    rfl

/-- The posts of a job that succeeds, after the reset. -/
def Course (posts : List Post) : Prop :=
  ∃ details rest, posts = postsOf .transcript details ++ rest ∧ Branches rest

section Course

variable {posts : List Post}

theorem filter_isAbout {stage : Stage} {stages : List Stage} (among : stage ∈ stages) :
    (posts.filter (Post.isAbout stages)).filter (Post.isAbout [stage]) =
      posts.filter (Post.isAbout [stage]) := by
  rw [List.filter_filter]
  refine List.filter_congr fun post _ => ?_
  have narrow : post.isAbout [stage] = true → post.isAbout stages = true := by
    unfold Post.isAbout
    simp only [Option.any_eq_true, List.mem_singleton, decide_eq_true_eq]
    rintro ⟨other, about, rfl⟩
    exact ⟨other, about, among⟩
  cases own : post.isAbout [stage] with
  | false => rfl
  | true => rw [narrow own, Bool.and_self]

/-- The posts about one stage are those of that stage being worked on. -/
theorem Branches.each (branches : Branches posts) {stage : Stage} (later : stage ≠ .transcript) :
    ∃ details, posts.filter (Post.isAbout [stage]) = postsOf stage details := by
  obtain ⟨details, details', visuals⟩ := branches.visuals
  cases stage with
  | transcript => exact absurd rfl later
  | subtitles => exact branches.subtitles
  | audio => exact branches.sound
  | pictures =>
      refine ⟨details, ?_⟩
      rw [← filter_isAbout (show Stage.pictures ∈ [.pictures, .playlist] by decide), visuals]
      rfl
  | playlist =>
      refine ⟨details', ?_⟩
      rw [← filter_isAbout (show Stage.playlist ∈ [.pictures, .playlist] by decide), visuals]
      rfl

namespace Course

theorem each (course : Course posts) (stage : Stage) :
    ∃ details, posts.filter (Post.isAbout [stage]) = postsOf stage details := by
  obtain ⟨details, rest, rfl, branches⟩ := course
  by_cases first : stage = .transcript
  · subst first
    have others : rest.filter (Post.isAbout [.transcript]) = [] := by
      refine List.filter_eq_nil_iff.2 fun post among => ?_
      rw [Post.not_isAbout (by decide) (branches.within post among)]
      exact Bool.false_ne_true
    refine ⟨details, ?_⟩
    rw [List.filter_append, others]
    rfl
  · obtain ⟨details', own⟩ := branches.each first
    refine ⟨details', ?_⟩
    have others : (postsOf .transcript details).filter (Post.isAbout [stage]) = [] := by
      refine List.filter_eq_nil_iff.2 fun post among => ?_
      rw [isAbout_of_mem_postsOf among]
      simpa using Ne.symm first
    rw [List.filter_append, others, own, List.nil_append]

theorem visuals (course : Course posts) : ∃ details details',
    posts.filter (Post.isAbout [.pictures, .playlist]) =
      postsOf .pictures details ++ postsOf .playlist details' := by
  obtain ⟨details, rest, rfl, branches⟩ := course
  obtain ⟨d₁, d₂, visuals⟩ := branches.visuals
  refine ⟨d₁, d₂, ?_⟩
  rw [List.filter_append, visuals]
  rfl

theorem noReset (course : Course posts) : .reset ∉ posts := by
  obtain ⟨details, rest, rfl, branches⟩ := course
  intro there
  rcases List.mem_append.1 there with there | there
  · simp [postsOf] at there
  · exact absurd (branches.within .reset there) (by decide)

theorem length (course : Course posts) : posts.length = 10 := by
  obtain ⟨details, rest, rfl, branches⟩ := course
  rw [List.length_append, branches.length]
  rfl

end Course

end Course

section Whole

variable (settings : Settings) (toolbox : Toolbox) (order : Order) (schedule : Schedule)
  (directory : Path) (size : FrameSize) (tracks : List Track)

/-- **The branches of a job**, whatever turns they take. -/
theorem tells_makeBranches (words : Transcript) (style : Picture.FrameStyle) :
    (makeBranches settings toolbox order schedule directory size tracks words style).Tells
      fun posts results => ∀ visuals subtitles sound,
        results = ((.ok visuals, .ok subtitles), .ok sound) → Branches posts := by
  have visuals := tells_makeVisuals settings order schedule.crew style words directory
  have subtitles := tells_makeSubtitles settings words size directory
  have sound := tells_makeSound settings toolbox tracks order.project.duration directory
  refine ((visuals.together schedule.subtitleTurns subtitles).together schedule.soundTurns
    sound).bind ?_
  rintro posts ⟨first, third⟩ ⟨outer, rfl, left, right⟩
  refine tells_check_bind fun both same => tells_pure ?_
  rintro v s a results
  obtain ⟨rfl, rfl⟩ := Prod.mk.inj results
  obtain ⟨inner, pictures, ofVisuals, ofSubtitles⟩ := left _ same
  obtain ⟨d₁, d₂, visuals⟩ := ofVisuals v rfl
  obtain ⟨d₃, subtitles⟩ := ofSubtitles s rfl
  obtain ⟨d₄, sound⟩ := right a rfl
  rw [List.append_nil]
  exact .of_rows pictures visuals subtitles sound

theorem tells_makeParts :
    (makeParts settings toolbox order schedule directory size tracks).Tells
      fun posts _ => Course posts := by
  refine tells_post_bind (p := .start .transcript) ?_
  refine tells_check_bind fun words _ => ?_
  refine tells_post_bind (p := .complete .transcript s!"{words.size} words") ?_
  refine tells_check_bind fun background _ => ?_
  refine (tells_makeBranches settings toolbox order schedule directory size tracks words _).bind ?_
  rintro posts ⟨⟨visuals, subtitles⟩, sound⟩ branches
  refine tells_check_bind fun v ofVisuals => tells_check_bind fun s ofSubtitles =>
    tells_check_bind fun a ofSound => tells_check_bind fun manifest _ =>
      (quiet_changeDisk _).bind_tells fun _ => tells_pure ?_
  refine ⟨_, posts, by rw [List.append_nil]; rfl, ?_⟩
  exact branches v s a (by rw [ofVisuals, ofSubtitles, ofSound])

theorem tells_makeAll :
    (makeAll settings toolbox order schedule directory).Tells fun posts _ => Course posts := by
  refine tells_check_bind fun size _ => ?_
  have parts := tells_makeParts settings toolbox order schedule directory size
    (order.project.tracks order.base)
  dsimp only
  split
  · exact parts
  · exact (quiet_versionLine toolbox).bind_tells fun _ => parts

/-- **What a job posts that succeeds.** -/
theorem tells_process :
    (process settings toolbox order schedule).Tells
      fun posts _ => ∃ rest, posts = .reset :: rest ∧ Course rest := by
  refine tells_check_bind fun _ _ => tells_check_bind fun _ _ => ?_
  refine (quiet_ask _).bind_tells fun directory => ?_
  refine (quiet_provideDirectory directory).bind_tells fun _ => ?_
  refine tells_post_bind (p := .reset) ?_
  refine (tells_makeAll settings toolbox order schedule directory).attempt.bind ?_
  intro posts outcome course
  cases outcome with
  | ok made =>
      refine tells_pure ⟨_, rfl, ?_⟩
      rw [List.append_nil]
      exact course made rfl
  | error failure =>
      dsimp only
      split
      · exact (quiet_clearAway directory).bind_tells fun _ => tells_throw failure
      · exact tells_throw failure

end Whole

end Job

end Slidecast
