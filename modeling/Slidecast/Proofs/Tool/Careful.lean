import Slidecast.Audio.Assembly
import Slidecast.Proofs.Files.Shown
import Slidecast.Proofs.Files.Touching
import Slidecast.Tool.Inquiry
import Slidecast.Tool.Rehearsal

/-!
# Careful tools

What the media tools do is not up to this library.  This module names what jobs rely on: asked for
its version, a tool leaves the disk as it is, and a call that makes sound touches only the file
that its last argument names.  This is the output, if the path of the output is a text.  A rehearsal
is careful in this sense (`Rehearsal.careful`).
-/

set_option autoImplicit false

namespace Slidecast

open Files Number

namespace Audio

theorem getLast?_trimArguments (source : Path) (seconds : Double) (output : Path) :
    (trimArguments source seconds output).getLast? = some output.shown := by
  simp [trimArguments]

theorem getLast?_mixArguments (dropout : Nat) (tracks : List Track) (seconds : Double)
    (output : Path) :
    (mixArguments dropout tracks seconds output).getLast? = some output.shown := by
  simp [mixArguments]

/-- The arguments of a call that makes sound, and the file that the last of them names. -/
inductive Makes : List String → Path → Prop where
  | trim (source : Path) (seconds : Double) (output : Path) :
      Makes (trimArguments source seconds output) output.asShown
  | mix (dropout : Nat) (tracks : List Track) (seconds : Double) (output : Path) :
      Makes (mixArguments dropout tracks seconds output) output.asShown

end Audio

namespace Toolbox

/-- What calls whose results count do to the disk: nothing if the tool is asked for its version,
and no more than touch the file they name if they make sound. -/
structure CarefulWhen (toolbox : Toolbox) (counts : Except Failure ToolOutput → Prop) : Prop where
  version : ∀ calls d, counts (toolbox calls ⟨.ffmpeg, ["-version"]⟩ d).1 →
    ∀ place, (toolbox calls ⟨.ffmpeg, ["-version"]⟩ d).2.lookup place = d.lookup place
  making : ∀ calls arguments file d, Audio.Makes arguments file →
    counts (toolbox calls ⟨.ffmpeg, arguments⟩ d).1 →
      d.TouchesOnly (toolbox calls ⟨.ffmpeg, arguments⟩ d).2 file

/-- Every call is careful, whether it succeeds or not. -/
def Careful (toolbox : Toolbox) : Prop := toolbox.CarefulWhen fun _ => True

/-- A call that succeeds is careful, so that the question for the version leaves the disk as it is,
and if it makes sound, it leaves the file that it names. -/
structure Reliable (toolbox : Toolbox) : Prop where
  careful : toolbox.CarefulWhen fun result => ∃ output, result = .ok output
  leaves : ∀ calls arguments file d, Audio.Makes arguments file →
    (∃ written, (toolbox calls ⟨.ffmpeg, arguments⟩ d).1 = .ok written) →
      (toolbox calls ⟨.ffmpeg, arguments⟩ d).2.hasFile file = true

/-- A tool cannot change in which directory relative paths start, and a call that makes sound
touches only the file that it names. -/
structure Confined (toolbox : Toolbox) : Prop where
  working : ∀ calls call (d : Disk), (toolbox calls call d).2.working = d.working
  making : ∀ calls arguments file (d : Disk), Audio.Makes arguments file →
    d.TouchesOnly (toolbox calls ⟨.ffmpeg, arguments⟩ d).2 file

theorem CarefulWhen.mono {toolbox : Toolbox} {counts fewer : Except Failure ToolOutput → Prop}
    (careful : toolbox.CarefulWhen counts) (implies : ∀ result, fewer result → counts result) :
    toolbox.CarefulWhen fewer where
  version calls d counted := careful.version calls d (implies _ counted)
  making calls arguments file d makes counted :=
    careful.making calls arguments file d makes (implies _ counted)

end Toolbox

namespace Audio.Makes

variable {arguments : List String} {file : Path}

/-- The last argument names the file. -/
theorem exists_getLast?_eq (makes : Makes arguments file) :
    ∃ last, arguments.getLast? = some last ∧ file = .ofText last := by
  cases makes with
  | trim source seconds output => exact ⟨_, getLast?_trimArguments source seconds output, rfl⟩
  | mix dropout tracks seconds output =>
      exact ⟨_, getLast?_mixArguments dropout tracks seconds output, rfl⟩

theorem head?_ne_version (makes : Makes arguments file) : arguments.head? ≠ some "-version" := by
  cases makes with
  | trim source seconds output => simp [trimArguments]
  | mix dropout tracks seconds output =>
      cases tracks with
      | nil => simp [mixArguments]
      | cons t ts => simp [mixArguments]

end Audio.Makes

namespace Rehearsal

theorem touchesOnly_making {text : String} {arguments : List String} {file : Path} {d : Disk}
    (makes : Audio.Makes arguments file) (result : Except Failure ToolOutput) :
    d.TouchesOnly (making text arguments d result).2 file := by
  obtain ⟨last, named, rfl⟩ := makes.exists_getLast?_eq
  unfold making written
  rw [named]
  simp only []
  split
  · next d' wrote => exact Disk.touchesOnly_write wrote
  · exact .refl d _

/-- A rehearsal is careful, however it answers. -/
theorem careful (r : Rehearsal) : r.toolbox.Careful where
  version calls d _ place := by
    unfold toolbox
    simp only [List.head?_cons, if_true, reduceCtorEq, if_false]
    split <;> rfl
  making calls arguments file d makes _ := by
    unfold toolbox
    simp only [reduceCtorEq, if_false, makes.head?_ne_version]
    split
    · exact .refl d file
    · split
      · exact .refl d file
      · exact touchesOnly_making makes _
      · exact .refl d file
      · exact touchesOnly_making makes _
      · exact touchesOnly_making makes _

theorem working_making (text : String) (arguments : List String) (d : Disk)
    (result : Except Failure ToolOutput) :
    (making text arguments d result).2.working = d.working := by
  unfold making written
  split
  · next d' wrote =>
      split at wrote
      · cases wrote
        rfl
      · exact Disk.working_of_write wrote
  · rfl

theorem confined (r : Rehearsal) : r.toolbox.Confined where
  working calls call d := by
    unfold toolbox
    split
    · rfl
    · split
      · rfl
      · split
        · rfl
        · cases r.manner with
          | failAlways => exact working_making ..
          | succeed => exact working_making ..
          | succeedSilently => rfl
          | failBefore => rfl
          | failAfter => exact working_making ..
          | timeout => exact working_making ..
  making calls arguments file d makes := r.careful.making calls arguments file d makes trivial

end Rehearsal

end Slidecast
