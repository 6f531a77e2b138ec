import Slidecast.Proofs.Job.Failure
import Slidecast.Proofs.Job.Manifest
import Slidecast.Proofs.Tracing

/-!
# What a schedule decides

The schedule of a job says in which order its branches take turns and its pictures are worked on.
Whatever it says, all branches take their steps to the end before anything is made of what they
came to (`JointCourse`), and what is made of it depends on nothing else: the first failure in the
order of the branches, not in that of time, or the deliverables, for which the manifest is then
written (`Concludes`).

So two schedules whose branches come out alike lead to the same failure or to the same deliverables,
unless one of them finds the manifest refused (`outcome_by_branches`).  In a directory in which
tools touch no more than they are asked to, they cannot differ in that either.
-/

set_option autoImplicit false

namespace Slidecast

open Files Number Speech

namespace Job

/-! ## A job around its branches -/

/-- What the branches of a job need to know. -/
structure Brief where
  size : FrameSize
  words : Transcript
  style : Picture.FrameStyle

/-- Finds the words of the utterance and how the frames are to look. -/
def preparing (settings : Settings) (order : Order) (size : FrameSize) : Action Brief := do
  starts .transcript
  let words ← Action.check order.utterance.transcript
  completes .transcript s!"{words.size} words"
  let background ← Action.check order.project.backgroundColour
  pure
    { size := size, words := words,
      style :=
        { settings.frame with
          width := size.width, height := size.height, background := background } }

/-- What is done before the branches. -/
def opening (settings : Settings) (toolbox : Toolbox) (order : Order) : Action Brief := do
  let size ← Action.check order.project.frameSize
  unless (order.project.tracks order.base).isEmpty do
    let _ ← versionLine toolbox
  preparing settings order size

/-- The branches, once it is known what they need. -/
def branches (settings : Settings) (toolbox : Toolbox) (order : Order) (schedule : Schedule)
    (directory : Path) (brief : Brief) : Action Outcomes :=
  makeBranches settings toolbox order schedule directory brief.size
    (order.project.tracks order.base) brief.words brief.style

/-- What is delivered if all branches succeed. -/
def deliverables (order : Order) (directory : Path) (brief : Brief) (visuals : List Path × Path)
    (subtitles : Path) (sound : Option Path) : Deliverables where
  id := order.id
  directory := directory
  frames := visuals.1
  playlist := visuals.2
  subtitles := subtitles
  sound := sound
  width := brief.size.width
  height := brief.size.height
  duration := order.project.duration
  wordCount := brief.words.size
  createdAt := order.createdAt

/-- What is done after the branches. -/
def closing (order : Order) (directory : Path) (brief : Brief) (outcomes : Outcomes) :
    Action Deliverables := do
  let visuals ← Action.check outcomes.1.1
  let subtitles ← Action.check outcomes.1.2
  let sound ← Action.check outcomes.2
  let made := deliverables order directory brief visuals subtitles sound
  let manifest ← Action.check made.manifest
  Action.changeDisk (·.write (directory / ⟨manifestName⟩) (.text manifest))
  pure made

section Parts

variable (settings : Settings) (toolbox : Toolbox) (order : Order) (schedule : Schedule)
  (directory : Path)

/-- What is done once the size and the tracks are known, in two parts. -/
theorem perform_makeParts (size : FrameSize) (w : World) :
    Action.perform
        (makeParts settings toolbox order schedule directory size
          (order.project.tracks order.base)) w =
      Action.perform
        (preparing settings order size >>= fun brief =>
          branches settings toolbox order schedule directory brief >>=
            closing order directory brief) w := by
  unfold makeParts preparing starts completes
  simp only [Action.perform_bind, Action.perform_check, Action.perform_post]
  cases order.utterance.transcript with
  | error failure => rfl
  | ok words =>
      simp only []
      cases order.project.backgroundColour with
      | error failure => rfl
      | ok background =>
          simp only [Action.perform_pure, Action.perform_bind, Action.perform_check, branches,
            closing, deliverables]

/-- A job is done in three parts. -/
theorem perform_makeAll (w : World) :
    Action.perform (makeAll settings toolbox order schedule directory) w =
      Action.perform
        (opening settings toolbox order >>= fun brief =>
          branches settings toolbox order schedule directory brief >>=
            closing order directory brief) w := by
  -- the version may be asked for or not, and either way what is prepared follows
  unfold makeAll opening
  simp only [Action.perform_bind, Action.perform_check]
  cases order.project.frameSize with
  | error failure => rfl
  | ok size =>
      simp only []
      cases (order.project.tracks order.base).isEmpty with
      | true =>
          have parts := perform_makeParts settings toolbox order schedule directory size w
          simp only [if_true, Action.perform_bind] at parts ⊢
          exact parts
      | false =>
          simp only [Bool.false_eq_true, if_false, Action.perform_bind]
          rcases Action.perform (versionLine toolbox) w with ⟨answer, w'⟩
          cases answer with
          | error failure => rfl
          | ok line =>
              have parts := perform_makeParts settings toolbox order schedule directory size w'
              simp only [Action.perform_bind] at parts ⊢
              exact parts

end Parts

/-! ## Courses of the branches -/

/-- A branch of a job. -/
inductive Branch where
  | visuals
  | subtitles
  | sound
  deriving DecidableEq

/-- The steps that a branch takes in a row of steps of all branches. -/
def stepsOf (branch : Branch) (row : List (Branch × World × World)) : List (World × World) :=
  (row.filter fun entry => entry.1 = branch).map Prod.snd

/-- A row of steps in which each branch goes all its way, up to its own end. -/
structure JointCourse (settings : Settings) (toolbox : Toolbox) (order : Order)
    (crew : Picture.Crew) (directory : Path) (brief : Brief) (w : World)
    (row : List (Branch × World × World)) (outcomes : Outcomes) (w' : World) : Prop where
  chained : Task.Chains w (row.map Prod.snd) w'
  visuals : Action.Ends (makeVisuals settings order crew brief.style brief.words directory)
    (stepsOf .visuals row) outcomes.1.1
  subtitles : Action.Ends (makeSubtitles settings brief.words brief.size directory)
    (stepsOf .subtitles row) outcomes.1.2
  sound : Action.Ends
    (makeSound settings toolbox (order.project.tracks order.base) order.project.duration directory)
    (stepsOf .sound row) outcomes.2

/-- A row of all branches, as a row of the pair of the first two and of the last, with the row of
the pair itself. -/
structure Nested (row : List (Branch × World × World)) (outer inner : List (Turn × World × World)) :
    Prop where
  all : row.map Prod.snd = outer.map Prod.snd
  pair : inner.map Prod.snd = partOf .left outer
  visuals : stepsOf .visuals row = partOf .left inner
  subtitles : stepsOf .subtitles row = partOf .right inner
  sound : stepsOf .sound row = partOf .right outer

namespace Nested

variable {row : List (Branch × World × World)} {outer inner : List (Turn × World × World)}

theorem nil : Nested [] [] [] := ⟨rfl, rfl, rfl, rfl, rfl⟩

theorem cons_visuals (nested : Nested row outer inner) (step : World × World) :
    Nested ((.visuals, step) :: row) ((.left, step) :: outer) ((.left, step) :: inner) where
  all := congrArg (step :: ·) nested.all
  pair := by rw [partOf_cons_self, ← nested.pair]; rfl
  visuals := by rw [partOf_cons_self, ← nested.visuals]; rfl
  subtitles := by rw [partOf_cons_other (by decide), ← nested.subtitles]; rfl
  sound := by rw [partOf_cons_other (by decide), ← nested.sound]; rfl

theorem cons_subtitles (nested : Nested row outer inner) (step : World × World) :
    Nested ((.subtitles, step) :: row) ((.left, step) :: outer) ((.right, step) :: inner) where
  all := congrArg (step :: ·) nested.all
  pair := by rw [partOf_cons_self, ← nested.pair]; rfl
  visuals := by rw [partOf_cons_other (by decide), ← nested.visuals]; rfl
  subtitles := by rw [partOf_cons_self, ← nested.subtitles]; rfl
  sound := by rw [partOf_cons_other (by decide), ← nested.sound]; rfl

theorem cons_sound (nested : Nested row outer inner) (step : World × World) :
    Nested ((.sound, step) :: row) ((.right, step) :: outer) inner where
  all := congrArg (step :: ·) nested.all
  pair := by rw [partOf_cons_other (by decide), ← nested.pair]
  visuals := nested.visuals
  subtitles := nested.subtitles
  sound := by rw [partOf_cons_self, ← nested.sound]; rfl

end Nested

/-- Every row of the pair and the last branch is one of all branches. -/
theorem exists_nested_row {outer inner : List (Turn × World × World)}
    (pair : inner.map Prod.snd = partOf .left outer) : ∃ row, Nested row outer inner := by
  induction outer generalizing inner with
  | nil =>
      obtain rfl := List.map_eq_nil_iff.1 pair
      exact ⟨[], .nil⟩
  | cons entry outer ih =>
      obtain ⟨turn, step⟩ := entry
      cases turn with
      | left =>
          -- the pair takes this step, so its own row begins with it and says which of the two it is
          rw [partOf_cons_self] at pair
          cases inner with
          | nil => cases pair
          | cons entry inner =>
              obtain ⟨whose, other⟩ := entry
              obtain ⟨rfl, rest⟩ := List.cons.inj pair
              obtain ⟨row, nested⟩ := ih rest
              cases whose with
              | left => exact ⟨_, nested.cons_visuals other⟩
              | right => exact ⟨_, nested.cons_subtitles other⟩
      | right =>
          rw [partOf_cons_other (by decide)] at pair
          obtain ⟨row, nested⟩ := ih pair
          exact ⟨_, nested.cons_sound step⟩

/-- Every row of all branches is one of the pair and the last branch. -/
theorem exists_nested (row : List (Branch × World × World)) :
    ∃ outer inner, Nested row outer inner := by
  induction row with
  | nil => exact ⟨[], [], .nil⟩
  | cons entry row ih =>
      obtain ⟨branch, step⟩ := entry
      obtain ⟨outer, inner, nested⟩ := ih
      cases branch with
      | visuals => exact ⟨_, _, nested.cons_visuals step⟩
      | subtitles => exact ⟨_, _, nested.cons_subtitles step⟩
      | sound => exact ⟨_, _, nested.cons_sound step⟩

section Courses

variable {settings : Settings} {toolbox : Toolbox} {order : Order} {directory : Path}
  {brief : Brief}

/-- **Whatever the schedule, all branches come to their own ends.** -/
theorem exists_course (settings : Settings) (toolbox : Toolbox) (order : Order)
    (schedule : Schedule) (directory : Path) (brief : Brief) (w : World) :
    ∃ row outcomes w',
      JointCourse settings toolbox order schedule.crew directory brief w row outcomes w' ∧
        Action.perform (branches settings toolbox order schedule directory brief) w =
          (.ok outcomes, w') := by
  obtain ⟨steps, ends, chained⟩ := Action.exists_ends_perform
    (branches settings toolbox order schedule directory brief) w
  have performed := ends.perform_eq chained
  obtain ⟨front, result, back, rfl, together, rest⟩ := Action.ends_bind_iff.1 ends
  obtain ⟨⟨first, sound⟩, rfl, outer, rfl, pair, third⟩ := together.together
  obtain ⟨⟨visuals, subtitles⟩, rfl, inner, same, left, right⟩ := pair.together
  obtain ⟨rfl, ended⟩ := Action.ends_pure_iff.1 rest
  obtain ⟨row, nested⟩ := exists_nested_row same
  rw [List.append_nil] at chained
  refine ⟨row, ((visuals, subtitles), sound), _, ⟨?_, ?_, ?_, ?_⟩, performed.trans (by rw [ended])⟩
  · rw [nested.all]
    exact chained
  · rw [nested.visuals]
    exact left
  · rw [nested.subtitles]
    exact right
  · rw [nested.sound]
    exact third

/-- **Every course of the branches is the one of some schedule.** -/
theorem JointCourse.exists_schedule {crew : Picture.Crew} {w w' : World}
    {row : List (Branch × World × World)} {outcomes : Outcomes}
    (course : JointCourse settings toolbox order crew directory brief w row outcomes w') :
    ∃ schedule : Schedule, schedule.crew = crew ∧
      Action.perform (branches settings toolbox order schedule directory brief) w =
        (.ok outcomes, w') := by
  obtain ⟨outer, inner, nested⟩ := exists_nested row
  have left := course.visuals
  have right := course.subtitles
  have third := course.sound
  rw [nested.visuals] at left
  rw [nested.subtitles] at right
  rw [nested.sound] at third
  have pair := Action.ends_together inner left right
  rw [nested.pair] at pair
  have all := Action.ends_together outer pair third
  rw [← nested.all] at all
  refine ⟨⟨crew, inner.map Prod.fst, outer.map Prod.fst⟩, rfl, ?_⟩
  refine Action.Ends.perform_eq (Action.ends_bind_iff.2 ?_) course.chained
  exact ⟨_, _, [], (List.append_nil _).symm, all, Action.ends_pure_iff.2 ⟨rfl, rfl⟩⟩

end Courses

/-! ## What follows -/

/-- What comes of the manifest: it is written, unless a path of the deliverables is not a text or the
disk refuses it. -/
def recorded (directory : Path) (made : Deliverables) (w : World) :
    Except Failure Deliverables × World :=
  match made.manifest with
  | .error failure => (.error failure, w)
  | .ok manifest =>
      match w.disk.write (directory / ⟨manifestName⟩) (.text manifest) with
      | .ok disk => (.ok made, { w with disk := disk })
      | .error fault => (.error (.io fault), w)

/-- What comes of a job whose branches have come to their ends: the failure of the first branch that
failed, and nothing more is done; or, if all have succeeded, the deliverables, when the manifest has
been written. -/
structure Concludes (order : Order) (directory : Path) (brief : Brief) (outcomes : Outcomes)
    (w : World) (result : Except Failure Deliverables × World) : Prop where
  visuals : ∀ failure, outcomes.1.1 = .error failure → result = (.error failure, w)
  subtitles : ∀ visuals failure, outcomes.1 = (.ok visuals, .error failure) →
    result = (.error failure, w)
  sound : ∀ visuals subtitles failure, outcomes = ((.ok visuals, .ok subtitles), .error failure) →
    result = (.error failure, w)
  manifest : ∀ visuals subtitles sound, outcomes = ((.ok visuals, .ok subtitles), .ok sound) →
    result = recorded directory (deliverables order directory brief visuals subtitles sound) w

theorem concludes_closing (order : Order) (directory : Path) (brief : Brief) (outcomes : Outcomes)
    (w : World) :
    Concludes order directory brief outcomes w
      (Action.perform (closing order directory brief outcomes) w) := by
  constructor
  · rintro failure failed
    simp [closing, failed]
  · rintro visuals failure failed
    simp [closing, failed]
  · rintro visuals subtitles failure rfl
    simp [closing]
  · rintro visuals subtitles sound rfl
    simp only [closing, Action.perform_bind, Action.perform_check, Action.changeDisk,
      Action.perform_step, recorded]
    cases (deliverables order directory brief visuals subtitles sound).manifest with
    | error failure => rfl
    | ok manifest =>
        simp only []
        cases w.disk.write (directory / ⟨manifestName⟩) (.text manifest) with
        | ok disk => rfl
        | error fault => rfl

/-- Deliverables of another job and another time. -/
def renamed (id createdAt : String) (made : Deliverables) : Deliverables :=
  { made with id := id, createdAt := createdAt }

/-- All branches have succeeded. -/
def Succeed (outcomes : Outcomes) : Prop :=
  ∃ visuals subtitles sound, outcomes = ((.ok visuals, .ok subtitles), .ok sound)

/-- Why the manifest cannot be written, if it cannot. -/
def refusal? (directory : Path) (made : Deliverables) (w : World) : Option Failure :=
  match made.manifest with
  | .error failure => some failure
  | .ok manifest =>
      match w.disk.write (directory / ⟨manifestName⟩) (.text manifest) with
      | .ok _ => none
      | .error fault => some (.io fault)

theorem recorded_fst (directory : Path) (made : Deliverables) (w : World) :
    (recorded directory made w).1 =
      match refusal? directory made w with
      | none => .ok made
      | some failure => .error failure := by
  unfold recorded refusal?
  cases made.manifest with
  | error failure => rfl
  | ok manifest =>
      simp only []
      cases w.disk.write (directory / ⟨manifestName⟩) (.text manifest) with
      | ok disk => rfl
      | error fault => rfl

section Alike

variable {order : Order} {directory : Path} {brief : Brief} {outcomes : Outcomes} {w w' : World}
  {result result' : Except Failure Deliverables × World} {id createdAt : String}

theorem renamed_deliverables (order : Order) (directory : Path) (brief : Brief)
    (visuals : List Path × Path) (subtitles : Path) (sound : Option Path) (id createdAt : String) :
    deliverables { order with id := id, createdAt := createdAt } directory brief visuals subtitles
        sound =
      renamed id createdAt (deliverables order directory brief visuals subtitles sound) := rfl

/-- What is delivered under another name fares alike, unless a disk refuses the manifest. -/
theorem recorded_alike (directory : Path) (w w' : World) {made other : Deliverables}
    (same : other = renamed id createdAt made) :
    (recorded directory other w').1 = (recorded directory made w).1.map (renamed id createdAt) ∨
      (∃ fault, (recorded directory made w).1 = .error (.io fault)) ∨
        ∃ fault, (recorded directory other w').1 = .error (.io fault) := by
  have paths : other.paths = made.paths := by rw [same]; rfl
  unfold recorded
  cases manifest : made.manifest with
  | error failure =>
      rw [(Deliverables.manifest_eq_error_iff paths).2 manifest]
      exact .inl rfl
  | ok text =>
      dsimp only
      cases w.disk.write (directory / ⟨manifestName⟩) (.text text) with
      | error fault => exact .inr (.inl ⟨fault, rfl⟩)
      | ok disk =>
          cases manifest' : other.manifest with
          | error failure =>
              rw [(Deliverables.manifest_eq_error_iff paths).1 manifest'] at manifest
              cases manifest
          | ok text' =>
              dsimp only
              cases w'.disk.write (directory / ⟨manifestName⟩) (.text text') with
              | error fault => exact .inr (.inr ⟨fault, rfl⟩)
              | ok disk' => exact .inl (congrArg Except.ok same)

namespace Concludes

/-- Branches that come out alike, not all with success, lead to the same failure. -/
theorem alike_of_failure (concludes : Concludes order directory brief outcomes w result)
    (other : Concludes { order with id := id, createdAt := createdAt } directory brief outcomes w'
      result')
    (failed : ¬ Succeed outcomes) : result'.1 = result.1.map (renamed id createdAt) := by
  obtain ⟨⟨first, second⟩, third⟩ := outcomes
  cases first with
  | error failure =>
      rw [concludes.visuals failure rfl, other.visuals failure rfl]
      rfl
  | ok visuals =>
      cases second with
      | error failure =>
          rw [concludes.subtitles visuals failure rfl, other.subtitles visuals failure rfl]
          rfl
      | ok subtitles =>
          cases third with
          | error failure =>
              rw [concludes.sound visuals subtitles failure rfl,
                other.sound visuals subtitles failure rfl]
              rfl
          | ok sound => exact absurd ⟨visuals, subtitles, sound, rfl⟩ failed

/-- If all branches succeed, it matters only whether the manifest is refused. -/
theorem fst_eq_of_succeed {visuals : List Path × Path} {subtitles : Path} {sound : Option Path}
    (concludes : Concludes order directory brief ((.ok visuals, .ok subtitles), .ok sound) w
      result) :
    result.1 =
      match refusal? directory (deliverables order directory brief visuals subtitles sound) w with
      | none => .ok (deliverables order directory brief visuals subtitles sound)
      | some failure => .error failure := by
  rw [concludes.manifest visuals subtitles sound rfl, recorded_fst]

/-- Branches that come out alike lead to the same, if manifests fare alike. -/
theorem alike (concludes : Concludes order directory brief outcomes w result)
    (other : Concludes { order with id := id, createdAt := createdAt } directory brief outcomes w'
      result')
    (manifests : ∀ made made' : Deliverables, made'.paths = made.paths →
      refusal? directory made' w' = refusal? directory made w) :
    result'.1 = result.1.map (renamed id createdAt) := by
  by_cases succeeded : Succeed outcomes
  · obtain ⟨visuals, subtitles, sound, rfl⟩ := succeeded
    rw [concludes.fst_eq_of_succeed, other.fst_eq_of_succeed,
      manifests (deliverables order directory brief visuals subtitles sound)
        (deliverables { order with id := id, createdAt := createdAt } directory brief visuals
          subtitles sound) rfl]
    cases refusal? directory (deliverables order directory brief visuals subtitles sound) w with
    | none => rfl
    | some failure => rfl
  · exact concludes.alike_of_failure other succeeded

/-- Branches that come out alike lead to the same, or a manifest is refused. -/
theorem alike_or_refused (concludes : Concludes order directory brief outcomes w result)
    (other : Concludes { order with id := id, createdAt := createdAt } directory brief outcomes w'
      result') :
    result'.1 = result.1.map (renamed id createdAt) ∨
      (Succeed outcomes ∧
        ((∃ fault, result.1 = .error (.io fault)) ∨ ∃ fault, result'.1 = .error (.io fault))) := by
  by_cases succeeded : Succeed outcomes
  · obtain ⟨visuals, subtitles, sound, rfl⟩ := succeeded
    rw [concludes.manifest visuals subtitles sound rfl, other.manifest visuals subtitles sound rfl]
    rcases recorded_alike directory w w'
      (renamed_deliverables order directory brief visuals subtitles sound id createdAt) with
      same | refused
    · exact .inl same
    · exact .inr ⟨⟨_, _, _, rfl⟩, refused⟩
  · exact .inl (concludes.alike_of_failure other succeeded)

end Concludes

end Alike

/-! ## At a site -/

section AtSite

variable {directory : Path} {site : Site directory} {w w' : World}

/-- Whether a manifest is refused at a site depends on the paths alone. -/
theorem refusal?_eq (holds : site.Holds w.disk) (later : site.Holds w'.disk)
    {made made' : Deliverables} (paths : made'.paths = made.paths) :
    refusal? directory made' w' = refusal? directory made w := by
  unfold refusal?
  cases manifest : made.manifest with
  | error failure => rw [(Deliverables.manifest_eq_error_iff paths).2 manifest]
  | ok text =>
      cases manifest' : made'.manifest with
      | error failure =>
          rw [(Deliverables.manifest_eq_error_iff paths).1 manifest'] at manifest
          cases manifest
      | ok text' =>
          dsimp only
          rw [holds.write_eq isName_manifestName, later.write_eq isName_manifestName,
            holds.newPlace_eq later isName_manifestName]
          cases w.disk.newPlace (directory / ⟨manifestName⟩) .isDirectory with
          | ok own => rfl
          | error fault => rfl

theorem secures_preparing {names : String → Prop} (settings : Settings) (order : Order)
    (size : FrameSize) (holds : site.Holds w.disk) :
    Action.Secures (site.terms names) (Action.Lapse True) (preparing settings order size)
      (fun _ _ => True) w := by
  refine (secures_post _).bind_never holds fun _ w₁ holds₁ _ => ?_
  refine (secures_check _).bind_never holds₁ fun words w₂ holds₂ _ => ?_
  refine (secures_post _).bind_never holds₂ fun _ w₃ holds₃ _ => ?_
  refine (secures_check _).bind_never holds₃ fun background w₄ holds₄ _ => ?_
  exact Action.secures_pure fun _ _ _ => trivial

theorem secures_opening {names : String → Prop} (settings : Settings) {toolbox : Toolbox}
    (trusted : Trusted True toolbox) (order : Order) (holds : site.Holds w.disk) :
    Action.Secures (site.terms names) (Action.Lapse True) (opening settings toolbox order)
      (fun _ _ => True) w := by
  refine (secures_check _).bind_never holds fun size w₁ holds₁ _ => ?_
  dsimp only
  split
  · exact secures_preparing settings order size holds₁
  · refine (secures_versionLine trusted holds₁).bind_lapse holds₁ fun _ w₂ holds₂ _ => ?_
    exact secures_preparing settings order size holds₂

/-- The two disks agree at the place of the manifest. -/
def SameManifest (site : Site directory) (w w' : World) : Prop :=
  w'.disk.lookup (site.placeOf manifestName) = w.disk.lookup (site.placeOf manifestName)

/-- Whoever keeps to the names of the branches leaves the manifest alone. -/
theorem secures_sameManifest {α : Type} {excuse : Except Failure α → Prop} {action : Action α}
    {post : α → World → Prop}
    (secures : Action.Secures (site.terms IsMade) excuse action post w)
    (holds : site.Holds w.disk) :
    Action.Secures (site.terms fun _ => True) excuse action
      (fun a w' => post a w' ∧ SameManifest site w w') w := by
  have about : site.About IsManifest (SameManifest site w) :=
    fun _ _ _ _ same now => (same manifestName rfl).trans now
  exact Site.secures_frame secures about (fun _ _ => trivial) (fun _ _ => trivial)
    (fun _ own made => not_isManifest_of_isMade made own) holds rfl

/-- Up to the ends of all branches, a job stays at its site and leaves the manifest alone. -/
theorem holds_branches {settings : Settings} {toolbox : Toolbox} {order : Order}
    {schedule : Schedule} {brief : Brief} {w₁ w₂ : World} {outcomes : Outcomes}
    (careful : toolbox.Careful) (holds : site.Holds w.disk)
    (opened : Action.perform (opening settings toolbox order) w = (.ok brief, w₁))
    (ended : Action.perform (branches settings toolbox order schedule directory brief) w₁ =
      (.ok outcomes, w₂)) :
    site.Holds w₂.disk ∧ SameManifest site w w₂ := by
  have trusted : Trusted True toolbox :=
    ⟨careful.mono fun _ _ => trivial, fun loose => absurd trivial loose⟩
  obtain ⟨holds₁, same⟩ : site.Holds w₁.disk ∧ SameManifest site w w₁ := by
    have secured := secures_sameManifest (secures_opening settings trusted order holds) holds
    rcases secured.perform holds with ⟨loose, _⟩ | ⟨base, kept⟩
    · exact absurd trivial loose
    · rw [opened] at base kept
      exact ⟨base, (kept brief rfl).2⟩
  have secured : Action.Secures (site.terms fun _ => True) (BranchesLapse True)
      (branches settings toolbox order schedule directory brief)
      (fun _ w' => _ ∧ SameManifest site w₁ w') w₁ :=
    secures_sameManifest (secures_branches settings trusted order schedule brief.size
      (order.project.tracks order.base) brief.words brief.style holds₁) holds₁
  rcases secured.perform holds₁ with ⟨loose, _⟩ | ⟨base, kept⟩
  · exact absurd trivial loose
  · rw [ended] at base kept
    exact ⟨base, (kept outcomes rfl).2.trans same⟩

end AtSite

/-! ## Schedules -/

section Schedules

variable {settings : Settings} {toolbox : Toolbox} {order : Order} {schedule : Schedule}
  {directory : Path} {brief : Brief} {w w₁ w₂ : World} {outcomes : Outcomes}

/-- What comes of a job, when its branches have come to their ends. -/
theorem concludes_makeAll
    (opened : Action.perform (opening settings toolbox order) w = (.ok brief, w₁))
    (ended : Action.perform (branches settings toolbox order schedule directory brief) w₁ =
      (.ok outcomes, w₂)) :
    Concludes order directory brief outcomes w₂
      (Action.perform (makeAll settings toolbox order schedule directory) w) := by
  rw [perform_makeAll, Action.perform_bind, opened]
  simp only [Action.perform_bind, ended]
  exact concludes_closing order directory brief outcomes w₂

end Schedules

/-- **Precedence is by branch, whatever the schedule.**  When a job has found the words of its
utterance, all of its branches come to their own ends, and every way in which they may take turns is
the one of some schedule.  Of what they come to, the first failure in the order of the branches is
the failure of the job; if all succeed, the manifest is written.

If the branches of two runs come to the same, the runs have the same failure or the same
deliverables, but for their names and times, or a manifest is refused although all branches have
succeeded.  With careful tools, this cannot make a difference between them, and nothing but the
manifest's own step touches the manifest. -/
theorem outcome_by_branches (settings : Settings) (toolbox : Toolbox) (order : Order)
    (directory : Path) (w w₁ : World) (brief : Brief)
    (opened : Action.perform (opening settings toolbox order) w = (.ok brief, w₁)) :
    (∀ schedule, ∃ row outcomes w₂,
      JointCourse settings toolbox order schedule.crew directory brief w₁ row outcomes w₂ ∧
        Action.perform (branches settings toolbox order schedule directory brief) w₁ =
          (.ok outcomes, w₂) ∧
        Concludes order directory brief outcomes w₂
          (Action.perform (makeAll settings toolbox order schedule directory) w)) ∧
      (∀ crew row outcomes w₂,
        JointCourse settings toolbox order crew directory brief w₁ row outcomes w₂ →
          ∃ schedule : Schedule, schedule.crew = crew ∧
            Action.perform (branches settings toolbox order schedule directory brief) w₁ =
              (.ok outcomes, w₂)) ∧
      ∀ schedule schedule' id createdAt outcomes w₂ w' w₁' w₂',
        Action.perform (opening settings toolbox order) w' = (.ok brief, w₁') →
        Action.perform (branches settings toolbox order schedule directory brief) w₁ =
          (.ok outcomes, w₂) →
        Action.perform (branches settings toolbox order schedule' directory brief) w₁' =
          (.ok outcomes, w₂') →
        let result := (Action.perform (makeAll settings toolbox order schedule directory) w).1
        let result' := (Action.perform
          (makeAll settings toolbox { order with id := id, createdAt := createdAt } schedule'
            directory) w').1
        (result' = result.map (renamed id createdAt) ∨
            (Succeed outcomes ∧
              ((∃ fault, result = .error (.io fault)) ∨ ∃ fault, result' = .error (.io fault)))) ∧
          (toolbox.Careful → ∀ site : Site directory, site.Holds w.disk → site.Holds w'.disk →
            SameManifest site w w₂ ∧ result' = result.map (renamed id createdAt)) := by
  refine ⟨?_, ?_, ?_⟩
  · intro schedule
    obtain ⟨row, outcomes, w₂, course, ended⟩ :=
      exists_course settings toolbox order schedule directory brief w₁
    exact ⟨row, outcomes, w₂, course, ended, concludes_makeAll opened ended⟩
  · intro crew row outcomes w₂ course
    exact course.exists_schedule
  · intro schedule schedule' id createdAt outcomes w₂ w' w₁' w₂' opened' ended ended'
    have concludes := concludes_makeAll opened ended
    have other : Concludes { order with id := id, createdAt := createdAt } directory brief outcomes
        w₂' _ := concludes_makeAll opened' ended'
    refine ⟨concludes.alike_or_refused other, fun careful site holds holds' => ?_⟩
    -- both runs end at the site, where the manifest fares alike
    obtain ⟨later, same⟩ := holds_branches careful holds opened ended
    obtain ⟨later', _⟩ := holds_branches careful holds' opened' ended'
    exact ⟨same, concludes.alike other fun made made' => refusal?_eq later later'⟩

/-- A job whose picture does not exist and whose sound is a text. -/
def lostReel : Order :=
  { lostPicture with project := { lostPicture.project with sounds := [{ source := "song.txt" }] } }

/-- A disk on which there is a text. -/
def archive : World :=
  { disk := (Disk.empty ["work"]).put ["work", "song.txt"] (.file (.text "la")) }

/-- The sound fails before the picture if it takes its turns first, and after it if it takes them
last; the picture's failure is reported in either case. -/
theorem outcome_lostReel :
    let toolbox := Rehearsal.toolbox {}
    let lost := Failure.fileNotFound (.picture ⟨"/work/lost.png"⟩)
    ∃ brief w₁, Action.perform (opening {} toolbox lostReel) archive = (.ok brief, w₁) ∧
      ∀ schedule ∈ [{}, { soundTurns := [.right, .right] }], ∃ row outcomes w₂,
        JointCourse {} toolbox lostReel {} ⟨"/work"⟩ brief w₁ row outcomes w₂ ∧
          outcomes.1.1 = .error lost ∧
          outcomes.2 = .error (.invalidInput (.audioFormat ⟨"/work/song.txt"⟩)) ∧
          Action.perform (makeAll {} toolbox lostReel schedule ⟨"/work"⟩) archive =
            (.error lost, w₂) := by
  intro toolbox lost
  -- the outcomes of the branches, without a name for what is found before them
  have failures : ∀ schedule ∈ [{}, { soundTurns := [.right, .right] : Schedule }],
      ((Action.perform (opening {} toolbox lostReel >>=
          branches {} toolbox lostReel schedule ⟨"/work"⟩) archive).1.toOption.map
        fun outcomes => (outcomes.1.1, outcomes.2)) =
          some (.error lost, .error (.invalidInput (.audioFormat ⟨"/work/song.txt"⟩))) := by
    decide +kernel
  have crews : ∀ schedule ∈ [{}, { soundTurns := [.right, .right] : Schedule }],
      schedule.crew = {} :=
    List.forall_mem_cons.2 ⟨rfl, List.forall_mem_singleton.2 rfl⟩
  cases opened : Action.perform (opening {} toolbox lostReel) archive with
  | mk result w₁ =>
      cases result with
      | error failure =>
          have first := failures {} List.mem_cons_self
          rw [Action.perform_bind, opened] at first
          cases first
      | ok brief =>
          refine ⟨brief, w₁, rfl, fun schedule among => ?_⟩
          obtain ⟨every, _, _⟩ :=
            outcome_by_branches {} toolbox lostReel ⟨"/work"⟩ archive w₁ brief opened
          obtain ⟨row, outcomes, w₂, course, ended, concludes⟩ := every schedule
          have failed := failures schedule among
          rw [Action.perform_bind, opened] at failed
          simp only [ended] at failed
          obtain ⟨visuals, sound⟩ := Prod.mk.inj (Option.some.inj failed)
          rw [crews schedule among] at course
          exact ⟨row, outcomes, w₂, course, visuals, sound, concludes.visuals _ visuals⟩

end Job

end Slidecast
