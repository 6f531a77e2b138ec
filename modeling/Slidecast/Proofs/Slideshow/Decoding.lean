import Mathlib.Data.List.Forall2
import Slidecast.Proofs.Number.Fixed
import Slidecast.Proofs.Slideshow.Durations

/-!
# Decoding playlists

A playlist tells everything that was put into it, if the paths are texts.  Its reader finds all
slides in their order, each with its path as it is and with its duration rounded to milliseconds
(`recovers_entryOf`), and then the last path again.  A duration of whole milliseconds is found as it
is, and those that are taken from cuts are of that kind (`isThousandths_durationAt`).

What the reader finds depends on the text alone, so playlists with the same text have the same paths
and the same texts of durations (`map_entryOf_of_playlist_eq`), whatever quotes, backslashes and line
breaks the paths have in them.  Paths that are no texts are found as they are shown.
-/

set_option autoImplicit false

namespace Slidecast.Slideshow

open Number Files

/-! ## Whole milliseconds -/

theorem isThousandths_wholeMillis {millis : Double} (finite : millis.isFinite = true)
    (nonneg : 0 ≤ millis.toRat) : (wholeMillis millis).IsThousandths := by
  obtain ⟨n, count⟩ := Int.eq_ofNat_of_zero_le
    (Int.floor_nonneg.2 (by linarith : 0 ≤ millis.toRat + 1 / 2))
  obtain ⟨zeroSign, seconds⟩ := exists_wholeMillis_eq finite nonneg
  rw [count, Int.cast_natCast] at seconds
  have scaled : (0 : Rat) ≤ n / 1000 := by positivity
  obtain ⟨negative, same⟩ := Binary.exists_nearest_eq (f := Format.double) zeroSign scaled
  exact ⟨negative, n, seconds.trans same⟩

/-- **A time from a cut to the next one has whole milliseconds**, unless it is too large. -/
theorem isThousandths_durationAt {fallback : Double} {row : List Double} (holds : ¬ FallsBack row)
    (finite : (durationAt fallback row).isFinite = true) :
    (durationAt fallback row).IsThousandths := by
  obtain ⟨millis, _, pos, same⟩ := exists_durationAt_eq fallback holds
  rw [same] at finite ⊢
  have infinite : ∀ negative, (wholeMillis (.infinite negative)).isFinite = false := by
    decide +kernel
  have sign : millis.isNegative = false := by
    by_contra negative
    exact not_pos_wholeMillis (Bool.not_eq_false _ ▸ negative) pos
  cases millis with
  | nan => cases finite
  | infinite negative =>
      rw [infinite negative] at finite
      cases finite
  | finite negative m e canonical =>
      exact isThousandths_wholeMillis rfl (Binary.toRat_nonneg_of_isNegative_eq_false sign)

/-! ## Entries of slides -/

/-- What an entry tells about a slide: its path, the milliseconds for which it is shown, rounded, and
its duration if that has whole milliseconds. -/
structure Recovers (slide : Slide) (entry : Entry) : Prop where
  path : entry.path = slide.path
  rounded : entry.duration.bind decimalValue? =
    some ((nearestEven (slide.duration.toRat * 1000) : Rat) / 1000)
  whole : slide.duration.IsThousandths → entry.duration.bind Binary.read? = some slide.duration

/-- The entry of a slide recovers it, if its path is a text and its duration is finite. -/
theorem recovers_entryOf {slide : Slide} (text : slide.path.IsText)
    (finite : slide.duration.isFinite = true) : Recovers slide (entryOf slide) where
  path := text
  rounded := by
    have value := decimalValue?_fixed finite 3
    norm_num at value
    exact value
  whole := Binary.read?_fixed_three finite

/-- Only the last path of a playlist has no duration, so it can be told from the slides. -/
theorem filter_entries (slides : List Slide) :
    (slides.map entryOf ++
      (slides.getLast?.map fun slide => Entry.mk slide.path.asShown none).toList).filter
        (·.duration.isSome) = slides.map entryOf := by
  have timed : (slides.map entryOf).filter (·.duration.isSome) = slides.map entryOf := by
    rw [List.filter_eq_self]
    intro entry member
    obtain ⟨slide, _, rfl⟩ := List.mem_map.1 member
    rfl
  rw [List.filter_append, timed]
  cases slides.getLast? with
  | none => exact List.append_nil _
  | some slide => exact List.append_nil _

/-- The paths of the entries of slides whose paths are texts. -/
theorem map_path_entryOf {slides : List Slide} (texts : ∀ slide ∈ slides, slide.path.IsText) :
    slides.map (Entry.path ∘ entryOf) = slides.map Slide.path :=
  List.map_congr_left texts

theorem map_getLast?_of_isText {slides : List Slide}
    (texts : ∀ slide ∈ slides, slide.path.IsText) :
    (slides.getLast?.map fun slide => Entry.mk slide.path.asShown none) =
      slides.getLast?.map fun slide => ⟨slide.path, none⟩ := by
  cases last : slides.getLast? with
  | none => rfl
  | some slide =>
      have text : slide.path.asShown = slide.path := texts slide (List.mem_of_getLast? last)
      rw [Option.map_some, Option.map_some, text]

/-- **Playlists with the same text** have the same entries. -/
theorem map_entryOf_of_playlist_eq {slides others : List Slide}
    (same : playlist others = playlist slides) :
    others.map entryOf = slides.map entryOf := by
  have read := entries?_playlist others
  rw [same, entries?_playlist slides] at read
  have entries := congrArg (List.filter (·.duration.isSome)) (Option.some.inj read)
  rw [filter_entries, filter_entries] at entries
  exact entries.symm

/-! ## Playlists -/

/-- **Playlists can be decoded.**  All slides are recovered in their order, and the last path stands
at the end again; and nothing else has the same text, except for what is rounded. -/
theorem playlist_decodes {slides : List Slide} (texts : ∀ slide ∈ slides, slide.path.IsText)
    (finite : ∀ slide ∈ slides, slide.duration.isFinite = true) :
    (∃ shown,
      entries? (playlist slides).toList =
        some (shown ++ (slides.getLast?.map fun slide => ⟨slide.path, none⟩).toList) ∧
      List.Forall₂ Recovers slides shown) ∧
    ∀ others, (∀ slide ∈ others, slide.path.IsText) → playlist others = playlist slides →
      others.map Slide.path = slides.map Slide.path ∧
        others.map (fun slide => slide.duration.fixed 3) =
          slides.map (fun slide => slide.duration.fixed 3) := by
  constructor
  · refine ⟨slides.map entryOf, ?_, ?_⟩
    · rw [entries?_playlist, map_getLast?_of_isText texts]
    · rw [List.forall₂_map_right_iff, List.forall₂_same]
      intro slide member
      exact recovers_entryOf (texts slide member) (finite slide member)
  · intro others texts' same
    have entries := map_entryOf_of_playlist_eq same
    have paths := congrArg (List.map Entry.path) entries
    have durations := congrArg (List.map Entry.duration) entries
    rw [List.map_map, List.map_map] at paths durations
    refine ⟨?_, List.map_injective_iff.2 (Option.some_injective _) ?_⟩
    · rw [← map_path_entryOf texts, ← map_path_entryOf texts']
      exact paths
    · rw [List.map_map, List.map_map]
      exact durations

/-- Paths that look like the text around them, and durations with a sign and with half a
millisecond. -/
def disguised : List Slide :=
  [⟨⟨"it's"⟩, 0.1⟩, ⟨⟨"'\\''"⟩, -2.5⟩, ⟨⟨"a'\nduration 9.000\nfile 'b"⟩, 0.0625⟩]

/-- Disguises are seen through. -/
theorem playlist_decodes_disguised :
    (∀ slide ∈ disguised, slide.path.IsText ∧ slide.duration.isFinite = true) ∧
      disguised.map (fun slide => slide.duration.fixed 3) = ["0.100", "-2.500", "0.062"] ∧
      ∃ shown,
        entries? (playlist disguised).toList =
          some (shown ++ [⟨⟨"a'\nduration 9.000\nfile 'b"⟩, none⟩]) ∧
        List.Forall₂ Recovers disguised shown := by
  have texts : ∀ slide ∈ disguised, slide.path.IsText := by decide +kernel
  have finite : ∀ slide ∈ disguised, slide.duration.isFinite = true := by decide +kernel
  exact ⟨fun slide member => ⟨texts slide member, finite slide member⟩, by decide +kernel,
    (playlist_decodes texts finite).1⟩

end Slidecast.Slideshow
