import Slidecast.Job.Deliverables
import Slidecast.Proofs.Json.Record
import Slidecast.Proofs.Json.Digits

/-!
# Manifests are read back

The text of a manifest is a record with a field for each part of what is delivered.  A reader gets
every part back from it (`ofManifest?_manifest`): texts whatever they hold, paths because a manifest
is written only if they are texts (`manifest_eq_ok_iff`), numbers if they fit into the words that a
manifest has for them, and the duration as its digits are read.
-/

set_option autoImplicit false

namespace Slidecast

open Number Json Document

namespace Deliverables

variable {made : Deliverables} {duration : Double}

/-- The sides of the frames have 32 bits, and the number of words has 64. -/
structure FitsWords (made : Deliverables) : Prop where
  width : made.width < 2 ^ 32
  height : made.height < 2 ^ 32
  wordCount : made.wordCount < 2 ^ 64

/-- The duration is read from a manifest as a number. -/
def ReadsDurationAs (made : Deliverables) (duration : Double) : Prop :=
  decode double (Document.double made.duration).compact = .ok duration

/-- A path that is a text is read from this text. -/
theorem reads_path {p : Path} (isText : p.IsText) : Reads pathDecoder (quote p.shown) p := by
  have read : Reads pathDecoder (quote p.shown) p.asShown := (reads_string p.shown).map Path.ofText
  rwa [isText] at read

theorem reads_paths (level : Nat) {paths : List Path} (texts : ∀ p ∈ paths, p.IsText) :
    Reads (list pathDecoder) (prettyChars level (.list (paths.map pathDocument))) paths := by
  refine reads_prettyList (fun element member => ?_) ?_
  · obtain ⟨p, _, rfl⟩ := List.mem_map.1 member
    exact ⟨'"', _, rfl, rfl, by decide⟩
  · rw [List.map_map, List.forall₂_map_left_iff, List.forall₂_same]
    exact fun p member => reads_path (texts p member)

/-- A path that may be missing is `null` if it is. -/
theorem reads_path? (level : Nat) {path? : Option Path} (texts : ∀ p ∈ path?, p.IsText) :
    Reads (optional pathDecoder) (prettyChars level ((path?.map pathDocument).getD .null))
      path? := by
  cases path? with
  | none => exact reads_null _
  | some p => exact reads_some rfl (by decide) (reads_path (texts p rfl))

theorem reads_word_of_lt {n bits : Nat} (narrow : bits ≤ 64) (small : n < 2 ^ bits) :
    Reads (word bits) (toString n).toList n := by
  have wide : 2 ^ bits ≤ 2 ^ 64 := Nat.pow_le_pow_right (by decide) narrow
  refine reads_natural (Nat.le_sub_one_of_lt small) ?_
  exact Nat.le_sub_one_of_lt (small.trans_le wide)

/-- All paths of the deliverables are texts. -/
def AreTexts (made : Deliverables) : Prop := ∀ p ∈ made.paths, p.IsText

theorem checkPaths_eq_ok_iff {paths : List Path} :
    checkPaths paths = .ok () ↔ ∀ p ∈ paths, p.IsText := by
  unfold checkPaths
  split
  · next texts => exact ⟨fun _ => texts, fun _ => rfl⟩
  · next others => exact ⟨nofun, fun texts => absurd texts others⟩

/-- **A manifest can be written exactly if all paths are texts.** -/
theorem manifest_eq_ok_iff {text : String} :
    made.manifest = .ok text ↔ made.AreTexts ∧ text = made.document.pretty := by
  rw [AreTexts, ← checkPaths_eq_ok_iff, manifest]
  cases checkPaths made.paths with
  | error fault => exact ⟨nofun, fun ⟨refused, _⟩ => nomatch refused⟩
  | ok _ =>
      constructor
      · intro written
        exact ⟨rfl, (Except.ok.inj written).symm⟩
      · rintro ⟨_, rfl⟩
        rfl

/-- Whether a manifest can be written depends on the paths alone. -/
theorem manifest_eq_error_iff {other : Deliverables} (same : other.paths = made.paths)
    {failure : Failure} : other.manifest = .error failure ↔ made.manifest = .error failure := by
  rw [manifest, manifest, same]
  cases checkPaths made.paths with
  | error fault => rfl
  | ok _ => exact ⟨nofun, nofun⟩

/-- The record is filled field by field, in the order in which the fields are written. -/
theorem reads_document (texts : made.AreTexts) (fits : made.FitsWords)
    (read : made.ReadsDurationAs duration) :
    Reads shape.decoder (prettyChars 0 made.document) { made with duration := duration } := by
  have own : made.directory.IsText := texts _ (by simp [paths])
  have frames : ∀ p ∈ made.frames, p.IsText := fun p member => texts p (by simp [paths, member])
  have playlist : made.playlist.IsText := texts _ (by simp [paths])
  have subtitles : made.subtitles.IsText := texts _ (by simp [paths])
  have sound : ∀ p ∈ made.sound, p.IsText := fun p member =>
    texts p (by simp [paths, Option.mem_def.1 member])
  rw [document, prettyChars_object (List.cons_ne_nil _ _)]
  refine reads_record ?_
  refine .field rfl rfl (reads_demanded (reads_string made.id)) ?_
  refine .field rfl rfl (reads_demanded (reads_path own)) ?_
  refine .field rfl rfl (reads_demanded (reads_paths 1 frames)) ?_
  refine .field rfl rfl (reads_demanded (reads_path playlist)) ?_
  refine .field rfl rfl (reads_demanded (reads_path subtitles)) ?_
  refine .field rfl rfl (reads_field (reads_path? 1 sound)) ?_
  refine .field rfl rfl (reads_demanded (reads_word_of_lt (by decide) fits.width)) ?_
  refine .field rfl rfl (reads_demanded (reads_word_of_lt (by decide) fits.height)) ?_
  refine .field rfl rfl (reads_demanded (reads_double_as read)) ?_
  refine .field rfl rfl (reads_demanded (reads_word_of_lt (by decide) fits.wordCount)) ?_
  refine .field rfl rfl (reads_demanded (reads_string made.createdAt)) ?_
  exact .done rfl

/-- **A manifest is read back**, up to what its duration is read as. -/
theorem ofManifest?_manifest {text : String} (written : made.manifest = .ok text)
    (fits : made.FitsWords) (read : made.ReadsDurationAs duration) :
    ofManifest? text = some { made with duration := duration } := by
  obtain ⟨texts, rfl⟩ := manifest_eq_ok_iff.1 written
  have back := (reads_document texts fits read).decode
  rw [ofManifest?, pretty, back]
  rfl

end Deliverables

end Slidecast
