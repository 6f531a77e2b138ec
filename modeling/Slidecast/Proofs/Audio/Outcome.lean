import Slidecast.Proofs.Files.Discarding
import Slidecast.Proofs.Number.Order
import Slidecast.Proofs.Tool.Careful

/-!
# How making sound ends

Cutting a track and mixing tracks are refused before the tool is called, and then nothing has
happened; or the tool is called once, and the end of the call is the end of the operation.  A call
that fails leaves no file at the path of the output, whatever the tool has written there, and
changes nothing else (`making_settles`).

The tool is told the output as it is shown.  If the path of the output is not a text, this names
another file, and what the tool has made of that one stays.

Whether an operation is refused is told by the values of its numbers: a length is finite and above
zero, and a volume or an offset is finite and not below zero.
-/

set_option autoImplicit false

namespace Slidecast.Audio

open Number Files Binary

variable {toolbox : Toolbox} {output source : Path} {seconds : Double} {dropout : Nat}
  {tracks : List Track} {w : World}

/-! ## What is accepted -/

/-- A finite number above zero. -/
def IsLength (x : Double) : Prop := x.isFinite = true ∧ 0 < x.toRat

/-- A finite number that is not below zero. -/
def IsLevel {f : Format} (x : Binary f) : Prop := x.isFinite = true ∧ 0 ≤ x.toRat

theorem isLevel_iff {f : Format} {x : Binary f} : IsLevel x ↔ 0 ≤ x ∧ x.isFinite = true := by
  constructor
  · rintro ⟨finite, above⟩
    exact ⟨(le_iff_toRat_le isFinite_literal_zero finite).2 (by simpa using above), finite⟩
  · rintro ⟨above, finite⟩
    exact ⟨finite, by simpa using (le_iff_toRat_le isFinite_literal_zero finite).1 above⟩

theorem isLength_iff : IsLength seconds ↔ 0 < seconds ∧ seconds.isFinite = true := by
  constructor
  · rintro ⟨finite, above⟩
    exact ⟨(lt_iff_toRat_lt isFinite_literal_zero finite).2 (by simpa using above), finite⟩
  · rintro ⟨above, finite⟩
    exact ⟨finite, by simpa using (lt_iff_toRat_lt isFinite_literal_zero finite).1 above⟩

theorem validateLength_eq_ok_iff : validateLength seconds = .ok () ↔ IsLength seconds := by
  rw [isLength_iff, validateLength]
  split
  · next accepted => exact ⟨fun _ => accepted, fun _ => rfl⟩
  · next refused => exact ⟨nofun, fun accepted => absurd accepted refused⟩

/-- A track whose volume and offset can be heard. -/
def Track.IsHeard (t : Track) : Prop := IsLevel t.volume ∧ IsLevel t.offset

theorem validate_eq_ok_iff {t : Track} : t.validate = .ok () ↔ t.IsHeard := by
  rw [Track.IsHeard, isLevel_iff, isLevel_iff, Track.validate]
  split
  · next refused => exact ⟨nofun, fun ⟨volume, _⟩ => absurd volume refused⟩
  · next volume =>
      split
      · next refused => exact ⟨nofun, fun ⟨_, offset⟩ => absurd offset refused⟩
      · next offset => exact ⟨fun _ => ⟨not_not.1 volume, not_not.1 offset⟩, fun _ => rfl⟩

/-- A check of every member of a row passes if it passes for each of them. -/
theorem forM_validate_eq_ok_iff :
    tracks.forM Track.validate = .ok () ↔ ∀ t ∈ tracks, t.IsHeard := by
  induction tracks with
  | nil => exact ⟨fun _ _ member => (nomatch member), fun _ => rfl⟩
  | cons t tracks ih =>
      rw [List.forall_mem_cons, ← ih, ← validate_eq_ok_iff]
      show (t.validate >>= fun _ => tracks.forM Track.validate) = .ok () ↔ _
      rw [bind_eq_ok]
      constructor
      · rintro ⟨⟨⟩, first, rest⟩
        exact ⟨first, rest⟩
      · rintro ⟨first, rest⟩
        exact ⟨(), first, rest⟩

theorem validateMix_eq_ok_iff :
    validateMix tracks seconds = .ok () ↔
      tracks ≠ [] ∧ IsLength seconds ∧ ∀ t ∈ tracks, t.IsHeard := by
  cases tracks with
  | nil => exact ⟨nofun, fun ⟨filled, _⟩ => absurd rfl filled⟩
  | cons t tracks =>
      rw [← forM_validate_eq_ok_iff, ← validateLength_eq_ok_iff]
      show (validateLength seconds >>= fun _ => (t :: tracks).forM Track.validate) = .ok () ↔ _
      rw [bind_eq_ok]
      constructor
      · rintro ⟨⟨⟩, length, heard⟩
        exact ⟨List.cons_ne_nil t tracks, length, heard⟩
      · rintro ⟨_, length, heard⟩
        exact ⟨(), length, heard⟩

/-! ## What is performed -/

theorem perform_call (tool : Tool) (arguments : List String) (w : World) :
    Action.perform (Action.call toolbox tool arguments) w =
      ((toolbox w.calls ⟨tool, arguments⟩ w.disk).1,
        { w with
          disk := (toolbox w.calls ⟨tool, arguments⟩ w.disk).2
          calls := w.calls ++ [⟨tool, arguments⟩] }) := rfl

/-- One call whose file stays only if it succeeds. -/
def making (toolbox : Toolbox) (arguments : List String) (output : Path) : Action Path := do
  let _ ← Action.keeping (.file output) (Action.call toolbox .ffmpeg arguments)
  pure output

theorem perform_making (arguments : List String) (w : World) :
    Action.perform (making toolbox arguments output) w =
      match toolbox w.calls ⟨.ffmpeg, arguments⟩ w.disk with
      | (.ok _, disk) =>
          (.ok output, { w with disk := disk, calls := w.calls ++ [⟨.ffmpeg, arguments⟩] })
      | (.error failure, disk) =>
          (.error failure,
            { w with
              disk := ((Provisional.file output).discard disk).2
              calls := w.calls ++ [⟨.ffmpeg, arguments⟩] }) := by
  rw [making, Action.perform_bind, Action.perform_keeping, perform_call]
  generalize toolbox w.calls ⟨.ffmpeg, arguments⟩ w.disk = answered
  rcases answered with ⟨answer, disk⟩
  cases answer with
  | ok written => rfl
  | error failure => rfl

/-- Why a track is not cut. -/
def TrimRefused (source : Path) (seconds : Double) (d : Disk) : Prop :=
  d.hasPath source = false ∨ ¬ IsLength seconds

/-- The tracks that are there. -/
def present (d : Disk) (tracks : List Track) : List Track :=
  tracks.filter fun t => d.hasPath t.source

/-- Why tracks are not mixed; a track that is not there is looked at, too. -/
def MixRefused (tracks : List Track) (seconds : Double) (d : Disk) : Prop :=
  tracks = [] ∨ ¬ IsLength seconds ∨ (∃ t ∈ tracks, ¬ t.IsHeard) ∨
    ∀ t ∈ tracks, d.hasPath t.source = false

theorem perform_trim_of_refused (refused : TrimRefused source seconds w.disk) :
    ∃ failure, Action.perform (trim toolbox source seconds output) w = (.error failure, w) := by
  rw [trim, Action.perform_bind, Action.perform_ask]
  cases there : w.disk.hasPath source with
  | false => exact ⟨_, rfl⟩
  | true =>
      have length : ¬ IsLength seconds := refused.resolve_left (by simp [there])
      rw [← validateLength_eq_ok_iff] at length
      cases checked : validateLength seconds with
      | ok _ => exact absurd checked length
      | error failure => exact ⟨failure, by simp⟩

theorem perform_trim_of_not_refused (accepted : ¬ TrimRefused source seconds w.disk) :
    Action.perform (trim toolbox source seconds output) w =
      Action.perform (making toolbox (trimArguments source seconds output) output) w := by
  rw [TrimRefused, not_or, not_not, Bool.not_eq_false] at accepted
  rw [trim, Action.perform_bind, Action.perform_ask]
  simp [accepted.1, validateLength_eq_ok_iff.2 accepted.2, making]

theorem present_eq_nil_iff {d : Disk} :
    present d tracks = [] ↔ ∀ t ∈ tracks, d.hasPath t.source = false := by
  simp [present, List.filter_eq_nil_iff]

theorem mixRefused_iff {d : Disk} :
    MixRefused tracks seconds d ↔ validateMix tracks seconds ≠ .ok () ∨ present d tracks = [] := by
  rw [MixRefused, Ne, validateMix_eq_ok_iff, present_eq_nil_iff]
  grind

theorem perform_mix_of_refused (refused : MixRefused tracks seconds w.disk) :
    ∃ failure, Action.perform (mix toolbox dropout tracks seconds output) w =
      (.error failure, w) := by
  rw [mix, Action.perform_bind, Action.perform_check]
  cases checked : validateMix tracks seconds with
  | error failure => exact ⟨failure, rfl⟩
  | ok _ =>
      have empty : present w.disk tracks = [] :=
        (mixRefused_iff.1 refused).resolve_left (by simp [checked])
      rw [present] at empty
      refine ⟨.fileNotFound (.everyTrack tracks.length), ?_⟩
      simp only [Action.perform_bind, Action.perform_ask, empty]
      rfl

theorem perform_mix_of_not_refused (accepted : ¬ MixRefused tracks seconds w.disk) :
    Action.perform (mix toolbox dropout tracks seconds output) w =
      Action.perform
        (making toolbox (mixArguments dropout (present w.disk tracks) seconds output) output) w := by
  rw [mixRefused_iff, not_or, not_not] at accepted
  obtain ⟨checked, nonempty⟩ := accepted
  rw [mix, Action.perform_bind, Action.perform_check, checked]
  have filled : (present w.disk tracks).isEmpty = false := by simpa using nonempty
  rw [present] at filled ⊢
  simp only [Action.perform_bind, Action.perform_ask, filled]
  rfl

/-! ## How it ends -/

/-- What becomes of an operation that makes a file with one call, on the disk `before`, when the
call gives an answer and leaves a disk.  The only places that may have changed when it has failed are
those of the output: where its name stands, and where a link at this place leads.  If the output is
not a text, there are also the places of the path that the tool was told. -/
def Follows (output : Path) (before : Disk) (answer : Except Failure ToolOutput × Disk)
    (outcome : Except Failure Path × World) : Prop :=
  match answer with
  | (.ok _, disk) => outcome.1 = .ok output ∧ outcome.2.disk = disk
  | (.error failure, _) =>
      outcome.1 = .error failure ∧ outcome.2.disk.hasFile output = false ∧
        ∀ place, ¬ before.IsPlaceOf output place →
          (output.IsText ∨ ¬ before.IsPlaceOf output.asShown place) →
            outcome.2.disk.lookup place = before.lookup place

/-- A world with one sound file. -/
def desk : World where
  disk := (Disk.empty ["work"]).put ["work", "voice.mp3"] (.file (.text "voice"))

/-- If the path of the output is not a text, what the tool has written is not at this path, and it
stays. -/
example :
    let toolbox := ({ manner := .failAfter } : Rehearsal).toolbox
    let output : Path := ⟨"cut-\xff.mp3"⟩
    let outcome := Action.perform (trim toolbox ⟨"voice.mp3"⟩ 1 output) desk
    output.shown = "cut-\uFFFD.mp3" ∧ ¬ output.IsText ∧ outcome.2.disk.hasFile output = false ∧
      outcome.2.disk.hasFile output.asShown = true := by decide +kernel

end Slidecast.Audio
