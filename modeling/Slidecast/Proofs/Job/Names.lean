import Slidecast.Job.Basic
import Slidecast.Proofs.Files.Shown
import Slidecast.Proofs.Number.Notation

/-!
# The names of a job

Every file that a job makes has a name, and the branches have different ones: the visuals have
the frames and the playlist, the subtitles their script, and the sound what is cut or mixed.  The
manifest has a name that none of them has.  The names of sound are made from texts, which are
written as UTF-8; the others are plain.
-/

set_option autoImplicit false

namespace Slidecast

open Files Number

namespace Job

/-- The names of frames. -/
def IsFrame (name : String) : Prop := ∃ index, name = Picture.frameName index

/-- The name of the playlist. -/
def IsPlaylist (name : String) : Prop := name = Slideshow.playlistName

/-- The names of what is seen. -/
def IsVisual (name : String) : Prop := IsFrame name ∨ IsPlaylist name

/-- The name of the subtitles. -/
def IsSubtitles (name : String) : Prop := name = Subtitle.scriptName

/-- The name of the manifest. -/
def IsManifest (name : String) : Prop := name = manifestName

/-- The texts from which names of sound are made. -/
def IsSoundText (text : String) : Prop :=
  (∃ seconds, text = Audio.mixName seconds) ∨
    ∃ source seconds, text = Audio.trimName source seconds

/-- The names of sound that is made. -/
def IsSound (name : String) : Prop := ∃ text, IsSoundText text ∧ name = Text.kept text

/-! ## They are names -/

/-- A text without separators is a name if it does not begin with a dot. -/
theorem isName_of_head {name : String} {c : Char} (first : name.toList.head? = some c)
    (noDot : c ≠ '.') (noSlash : '/' ∉ name.toList) : Path.IsName name := by
  refine ⟨?_, noSlash, ?_, ?_⟩
  · rintro rfl
    simp at first
  · rintro rfl
    exact noDot (by simpa using first.symm)
  · rintro rfl
    exact noDot (by simpa using first.symm)

theorem slash_notMem_toString (n : Nat) : '/' ∉ (toString n).toList := by
  intro member
  exact absurd (isDigit_of_mem_toString member) (by decide)

theorem head?_frameName (index : Nat) :
    (Picture.frameName index).toList.head? = some 'p' := by
  simp [Picture.frameName]

theorem isName_frameName (index : Nat) : Path.IsName (Picture.frameName index) := by
  have digits := slash_notMem_toString index
  refine isName_of_head (head?_frameName index) (by decide) ?_
  simp only [Picture.frameName, String.toList_append, List.mem_append, not_or]
  exact ⟨⟨by decide, digits⟩, by decide⟩

theorem frameName_inj {index other : Nat}
    (same : Picture.frameName index = Picture.frameName other) : index = other := by
  have texts := congrArg String.toList same
  simp only [Picture.frameName, String.toList_append] at texts
  have digits := List.append_cancel_left (List.append_cancel_right texts)
  have numbers := congrArg (fun cs => Nat.ofDigitChars 10 cs 0) digits
  simpa [Nat.toString_eq_ofList_toDigits] using numbers

theorem slash_notMem_lengthText (seconds : Double) :
    '/' ∉ (Audio.lengthText seconds).toList := by
  have digits := slash_notMem_toString (seconds.truncate Audio.longestNamed)
  simp only [Audio.lengthText, String.toList_append, List.mem_append, not_or]
  exact ⟨digits, by decide⟩

theorem head?_mixName (seconds : Double) :
    (Audio.mixName seconds).toList.head? = some 'm' := by
  simp [Audio.mixName]

theorem slash_notMem_mixName (seconds : Double) : '/' ∉ (Audio.mixName seconds).toList := by
  have length := slash_notMem_lengthText seconds
  simp only [Audio.mixName, String.toList_append, List.mem_append, not_or]
  exact ⟨⟨by decide, length⟩, by decide⟩

/-- The file name of a path holds no separator. -/
theorem slash_notMem_fileName? {p : Path} {name : String} (named : p.fileName? = some name) :
    '/' ∉ name.toList := by
  unfold Path.fileName? at named
  split at named
  · next text last =>
      cases named
      have member : PathPart.name name ∈ p.parts := List.mem_of_getLast? last
      have inner : PathPart.name name ∈ p.inner := by
        rw [Path.parts_eq] at member
        split at member
        · simpa using member
        · split at member
          · simpa using member
          · exact member
      exact (Path.isInner_of_mem inner).2.2.2
  · cases named

theorem head?_trimName (source : Path) (seconds : Double) :
    (Audio.trimName source seconds).toList.head? = some 't' := by
  simp [Audio.trimName]

theorem slash_notMem_trimName (source : Path) (seconds : Double) :
    '/' ∉ (Audio.trimName source seconds).toList := by
  have length := slash_notMem_lengthText seconds
  have last : '/' ∉ ((source.fileName?.map Text.shown).getD "audio.mp3").toList := by
    cases named : source.fileName? with
    | none => decide
    | some name => exact Text.slash_notMem_shown (slash_notMem_fileName? named)
  simp only [Audio.trimName, String.toList_append, List.mem_append, not_or]
  exact ⟨⟨⟨by decide, length⟩, by decide⟩, last⟩

theorem head?_of_isSoundText {text : String} (isSound : IsSoundText text) :
    text.toList.head? = some 'm' ∨ text.toList.head? = some 't' := by
  rcases isSound with ⟨seconds, rfl⟩ | ⟨source, seconds, rfl⟩
  · exact .inl (head?_mixName seconds)
  · exact .inr (head?_trimName source seconds)

theorem head?_of_isSound {name : String} (isSound : IsSound name) :
    name.toList.head? = some 'm' ∨ name.toList.head? = some 't' := by
  obtain ⟨text, ofSound, rfl⟩ := isSound
  rcases head?_of_isSoundText ofSound with first | first
  · exact .inl (Text.head?_kept first (by decide))
  · exact .inr (Text.head?_kept first (by decide))

theorem isName_of_isSound {name : String} (isSound : IsSound name) : Path.IsName name := by
  have noSlash : '/' ∉ name.toList := by
    obtain ⟨text, ⟨seconds, rfl⟩ | ⟨source, seconds, rfl⟩, rfl⟩ := isSound
    · exact mt Text.slash_mem_kept_iff.1 (slash_notMem_mixName seconds)
    · exact mt Text.slash_mem_kept_iff.1 (slash_notMem_trimName source seconds)
  rcases head?_of_isSound isSound with first | first
  · exact isName_of_head first (by decide) noSlash
  · exact isName_of_head first (by decide) noSlash

/-- The names of sound are texts. -/
theorem kept_shown_of_isSound {name : String} (isSound : IsSound name) :
    Text.kept (Text.shown name) = name := by
  obtain ⟨text, _, rfl⟩ := isSound
  rw [Text.shown_kept]

theorem isName_playlistName : Path.IsName Slideshow.playlistName := by decide

theorem isName_scriptName : Path.IsName Subtitle.scriptName := by decide

theorem isName_manifestName : Path.IsName manifestName := by decide

/-! ## They are different -/

theorem ne_of_head {name other : String} {c c' : Char} (first : name.toList.head? = some c)
    (first' : other.toList.head? = some c') (apart : c ≠ c') : name ≠ other := by
  rintro rfl
  rw [first] at first'
  exact apart (Option.some.inj first')

theorem head?_of_isVisual {name : String} (isVisual : IsVisual name) :
    name.toList.head? = some 'p' ∨ name.toList.head? = some 'i' := by
  rcases isVisual with ⟨index, rfl⟩ | rfl
  · exact .inl (head?_frameName index)
  · exact .inr rfl

theorem not_isSubtitles_of_isVisual {name : String} (isVisual : IsVisual name) :
    ¬ IsSubtitles name := by
  have last : Subtitle.scriptName.toList.head? = some 's' := rfl
  rcases head?_of_isVisual isVisual with first | first
  · exact ne_of_head first last (by decide)
  · exact ne_of_head first last (by decide)

theorem not_isSound_of_head {name : String} {c : Char} (first : name.toList.head? = some c)
    (notMixed : c ≠ 'm') (notCut : c ≠ 't') : ¬ IsSound name := by
  intro isSound
  rcases head?_of_isSound isSound with other | other
  · exact ne_of_head first other notMixed rfl
  · exact ne_of_head first other notCut rfl

theorem not_isSound_of_isVisual {name : String} (isVisual : IsVisual name) : ¬ IsSound name := by
  rcases head?_of_isVisual isVisual with first | first
  · exact not_isSound_of_head first (by decide) (by decide)
  · exact not_isSound_of_head first (by decide) (by decide)

theorem not_isSound_scriptName : ¬ IsSound Subtitle.scriptName :=
  not_isSound_of_head rfl (by decide) (by decide)

/-- The manifest begins like a mix but goes on differently. -/
theorem not_isSound_manifestName : ¬ IsSound manifestName := by
  rintro ⟨text, ofSound, same⟩
  have shown : manifestName = text := by
    rw [← Text.shown_kept text, ← same, Text.shown_of_isPlainText (by decide)]
  rcases ofSound with ⟨seconds, rfl⟩ | ⟨source, seconds, rfl⟩
  · have second := congrArg (fun text => text.toList[1]?) shown
    simp [manifestName, Audio.mixName] at second
  · exact ne_of_head rfl (head?_trimName source seconds) (by decide) shown

theorem not_isVisual_manifestName : ¬ IsVisual manifestName := by
  intro isVisual
  rcases head?_of_isVisual isVisual with first | first
  · exact absurd first (by decide)
  · exact absurd first (by decide)

theorem not_isSubtitles_manifestName : ¬ IsSubtitles manifestName := by
  have apart : manifestName ≠ Subtitle.scriptName := by decide
  exact apart

theorem not_isPlaylist_of_isFrame {name : String} (isFrame : IsFrame name) :
    ¬ IsPlaylist name := by
  obtain ⟨index, rfl⟩ := isFrame
  exact ne_of_head (head?_frameName index) rfl (by decide)

/-- The names of what is shown. -/
def IsShown (name : String) : Prop := IsVisual name ∨ IsSubtitles name

/-- The names of what the branches make. -/
def IsMade (name : String) : Prop := IsShown name ∨ IsSound name

theorem not_isSound_of_isShown {name : String} (isShown : IsShown name) : ¬ IsSound name := by
  rcases isShown with isVisual | isSubtitles
  · exact not_isSound_of_isVisual isVisual
  · rw [isSubtitles]
    exact not_isSound_scriptName

theorem not_isManifest_of_isMade {name : String} (isMade : IsMade name) : ¬ IsManifest name := by
  rintro rfl
  rcases isMade with (isVisual | isSubtitles) | isSound
  · exact not_isVisual_manifestName isVisual
  · exact not_isSubtitles_manifestName isSubtitles
  · exact not_isSound_manifestName isSound

/-! ## Rows of names -/

/-- Different names of a kind. -/
structure AreOf (kind : String → Prop) (names : List String) : Prop where
  nodup : names.Nodup
  are : ∀ name ∈ names, kind name

theorem areOf_singleton (name : String) : AreOf (fun other => other = name) [name] where
  nodup := List.pairwise_singleton _ name
  are _ member := List.mem_singleton.1 member

theorem areOf_option {kind : String → Prop} {name? : Option String}
    (is : ∀ name ∈ name?, kind name) : AreOf kind name?.toList := by
  cases name? with
  | none => exact ⟨List.Pairwise.nil, fun _ absent => absurd absent List.not_mem_nil⟩
  | some name =>
      refine ⟨List.pairwise_singleton _ name, fun other member => ?_⟩
      rw [List.mem_singleton.1 member]
      exact is name rfl

theorem AreOf.append {kind other : String → Prop} {names others : List String}
    (first : AreOf kind names) (second : AreOf other others)
    (apart : ∀ name, kind name → ¬ other name) :
    AreOf (fun name => kind name ∨ other name) (names ++ others) where
  nodup := by
    refine List.nodup_append.2 ⟨first.nodup, second.nodup, fun name member name' member' => ?_⟩
    rintro rfl
    exact apart name (first.are name member) (second.are name member')
  are name member := (List.mem_append.1 member).imp (first.are name) (second.are name)

theorem areOf_frames (count : Nat) : AreOf IsFrame ((List.range count).map Picture.frameName) where
  nodup := List.Pairwise.map Picture.frameName (fun _ _ apart same => apart (frameName_inj same))
    List.nodup_range
  are name member := by
    obtain ⟨index, _, same⟩ := List.mem_map.1 member
    exact ⟨index, same.symm⟩

/-- **All names of a job are different.** -/
theorem areOf_names (count : Nat) {sound? : Option String}
    (isSound : ∀ name ∈ sound?, IsSound name) :
    AreOf (fun name => IsMade name ∨ IsManifest name)
      ((List.range count).map Picture.frameName ++ [Slideshow.playlistName] ++
        [Subtitle.scriptName] ++ sound?.toList ++ [manifestName]) := by
  have visuals : AreOf IsVisual _ :=
    (areOf_frames count).append (areOf_singleton Slideshow.playlistName)
      fun _ => not_isPlaylist_of_isFrame
  have shown : AreOf IsShown _ :=
    visuals.append (areOf_singleton Subtitle.scriptName) fun _ => not_isSubtitles_of_isVisual
  have made : AreOf IsMade _ :=
    shown.append (areOf_option isSound) fun _ => not_isSound_of_isShown
  exact made.append (areOf_singleton manifestName) fun _ => not_isManifest_of_isMade

theorem isName_of_isMade {name : String} (isMade : IsMade name ∨ IsManifest name) :
    Path.IsName name := by
  rcases isMade with (((⟨index, rfl⟩ | rfl) | rfl) | isSound) | rfl
  · exact isName_frameName index
  · exact isName_playlistName
  · exact isName_scriptName
  · exact isName_of_isSound isSound
  · exact isName_manifestName

end Job

end Slidecast
