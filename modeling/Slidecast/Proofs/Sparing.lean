import Slidecast.Proofs.Audio.Outcome
import Slidecast.Proofs.Picture.Batch

/-!
# What a failure spares

An operation that fails removes what its output names, whether it has made it or not.  So a file
that was there before stays exactly if no output of the operation names it (`failure_spares`): a
source stays if it is not the output itself, under any spelling, and is gone otherwise
(`trim_removes_source`).
-/

set_option autoImplicit false

namespace Slidecast

open Files Audio Picture

variable {place : Place} {content : Content}

/-- What becomes of a file when an operation has failed that calls the tool for an output unless it
is refused: if the call has left the file alone, the file stays exactly if there was no call or the
output is not the name of the file. -/
def Spared (toolbox : Toolbox) (arguments : List String) (output : Path) (refused : Prop)
    (w : World) (after : Disk) (place : Place) (content : Content) : Prop :=
  let left := (toolbox w.calls ⟨.ffmpeg, arguments⟩ w.disk).2
  (¬ refused → left.lookup place = some (.file content)) →
    (after.lookup place = some (.file content) ↔ refused ∨ ¬ left.Names output place)

/-- A call that fails, and the removal of its output. -/
theorem lookup_making_iff {toolbox : Toolbox} {arguments : List String} {output : Path} {w : World}
    {failure : Failure}
    (failed : (Action.perform (making toolbox arguments output) w).1 = .error failure)
    (left : (toolbox w.calls ⟨.ffmpeg, arguments⟩ w.disk).2.lookup place = some (.file content)) :
    (Action.perform (making toolbox arguments output) w).2.disk.lookup place =
        some (.file content) ↔
      ¬ (toolbox w.calls ⟨.ffmpeg, arguments⟩ w.disk).2.Names output place := by
  rw [perform_making] at failed ⊢
  generalize toolbox w.calls ⟨.ffmpeg, arguments⟩ w.disk = answered at failed left ⊢
  rcases answered with ⟨answer, disk⟩
  cases answer with
  | ok written => cases failed
  | error cause => exact Provisional.lookup_discard_file_iff left

/-- An operation that fails before its call, or makes its call. -/
theorem spared_of_making {toolbox : Toolbox} {arguments : List String} {output : Path}
    {refused : Prop} {action : Action Path} {w : World} {failure : Failure}
    (held : w.disk.lookup place = some (.file content))
    (before : refused → ∃ failure, Action.perform action w = (.error failure, w))
    (accepted : ¬ refused →
      Action.perform action w = Action.perform (making toolbox arguments output) w)
    (failed : (Action.perform action w).1 = .error failure) :
    Spared toolbox arguments output refused w (Action.perform action w).2.disk place content := by
  intro alone
  by_cases holds : refused
  · obtain ⟨_, ended⟩ := before holds
    rw [ended]
    exact iff_of_true held (.inl holds)
  · rw [accepted holds] at failed ⊢
    rw [lookup_making_iff failed (alone holds), or_iff_right holds]

/-- **What a failure spares.**  A file that was there, and that the tool has left alone, stays when a
track cannot be cut or tracks cannot be mixed, exactly if it is not what the output names.  It stays
when a batch of frames fails, if the path of no frame names it or leads to it; and if it is named by a
frame in front of the first one that leads to a directory, and no frame names a link, it is gone. -/
theorem failure_spares (w : World) (place : Place) (content : Content)
    (held : w.disk.lookup place = some (.file content)) :
    (∀ toolbox source seconds output failure,
      (Action.perform (trim toolbox source seconds output) w).1 = .error failure →
      Spared toolbox (trimArguments source seconds output) output
        (TrimRefused source seconds w.disk) w
        (Action.perform (trim toolbox source seconds output) w).2.disk place content) ∧
    (∀ toolbox dropout tracks seconds output failure,
      (Action.perform (mix toolbox dropout tracks seconds output) w).1 = .error failure →
      Spared toolbox (mixArguments dropout (present w.disk tracks) seconds output) output
        (MixRefused tracks seconds w.disk) w
        (Action.perform (mix toolbox dropout tracks seconds output) w).2.disk place content) ∧
    (∀ style crew sources directory failure,
      (Action.perform (makeFrames style crew sources directory) w).1 = .error failure →
      let made := w.disk.provideDirectory directory
      let frames := targets directory sources.length
      let after := (Action.perform (makeFrames style crew sources directory) w).2.disk
      ((∀ p ∈ frames, ¬ made.2.IsPlaceOf p place) →
        after.lookup place = some (.file content)) ∧
      (w.disk.Grounded → sources ≠ [] → made.1 = .ok () →
        (∀ p ∈ frames, made.2.NamesNoLink p) →
        (∃ p ∈ made.2.removable frames, made.2.Names p place) → after.lookup place = none)) := by
  refine ⟨?_, ?_, ?_⟩
  · intro toolbox source seconds output failure failed
    exact spared_of_making held perform_trim_of_refused perform_trim_of_not_refused failed
  · intro toolbox dropout tracks seconds output failure failed
    exact spared_of_making held perform_mix_of_refused perform_mix_of_not_refused failed
  · intro style crew sources directory failure failed
    refine ⟨lookup_perform_makeFrames style crew sources directory w held, ?_⟩
    rintro grounded filled provided noLinks ⟨p, inFront, names⟩
    exact lookup_perform_makeFrames_of_names failed grounded filled (Prod.ext provided rfl) noLinks
      inFront names

/-- A source stays when the output that cannot be made has another name. -/
theorem failure_spares_desk :
    let toolbox := ({ manner := .failAfter } : Rehearsal).toolbox
    let outcome := Action.perform (trim toolbox ⟨"voice.mp3"⟩ 1 ⟨"cut.mp3"⟩) desk
    outcome.1 = .error (Rehearsal.failure .ffmpeg) ∧
      outcome.2.disk.lookup ["work", "voice.mp3"] = some (.file (.text "voice")) := by
  intro toolbox outcome
  have held : desk.disk.lookup ["work", "voice.mp3"] = some (.file (.text "voice")) := rfl
  have failed : outcome.1 = .error (Rehearsal.failure .ffmpeg) := by decide +kernel
  have confined : toolbox.Confined := Rehearsal.confined _
  have touches := confined.making desk.calls _ _ desk.disk (.trim ⟨"voice.mp3"⟩ 1 ⟨"cut.mp3"⟩)
  have text : Path.asShown ⟨"cut.mp3"⟩ = ⟨"cut.mp3"⟩ := by decide +kernel
  rw [text] at touches
  have layout := touches.keepsLayout (confined.working _ _ _)
  have elsewhere : ¬ desk.disk.IsPlaceOf ⟨"cut.mp3"⟩ ["work", "voice.mp3"] := by decide +kernel
  have alone := (touches ["work", "voice.mp3"]).resolve_right fun touched => elsewhere touched.1
  have spared := (failure_spares desk ["work", "voice.mp3"] (.text "voice") held).1
    toolbox ⟨"voice.mp3"⟩ 1 ⟨"cut.mp3"⟩ (Rehearsal.failure .ffmpeg) failed
  refine ⟨failed, (spared fun _ => alone.trans held).2 (.inr fun names => ?_)⟩
  exact elsewhere (layout.names names).isPlaceOf

/-- A track that is to be cut in place is removed when the tool fails, although the tool has left it
alone. -/
theorem trim_removes_source :
    let toolbox := ({ manner := .failBefore } : Rehearsal).toolbox
    let source : Path := ⟨"voice.mp3"⟩
    let outcome := Action.perform (trim toolbox source 1 source) desk
    desk.disk.hasFile source = true ∧
    (toolbox desk.calls ⟨.ffmpeg, trimArguments source 1 source⟩ desk.disk).2.hasFile source =
      true ∧
    outcome.1 = .error (Rehearsal.failure .ffmpeg) ∧ outcome.2.disk.hasPath source = false := by
  decide +kernel

end Slidecast
