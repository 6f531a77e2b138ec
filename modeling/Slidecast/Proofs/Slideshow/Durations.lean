import Slidecast.Proofs.Number.Places
import Slidecast.Proofs.Slideshow.Cuts
import Slidecast.Proofs.Slideshow.Reading
import Slidecast.Settings.Basic
import Slidecast.Slideshow.Playlist

/-!
# Durations

A picture is shown from its cut to the next one.  The time is taken in milliseconds and rounded to
whole ones, which leaves something exactly from half a millisecond on (`pos_wholeMillis_iff`); if
nothing is left, or there is no next cut, the picture is shown as long as the fallback says.

What is above zero when it is computed need not be above zero when it is written.  A time in
milliseconds can be too large for a number, and is then written as `inf`; the fallback is not
rounded before it is compared with zero, and is written as `0.000` if it is at most half a
millisecond.  Nothing else goes wrong (`durations_above_zero_iff`).
-/

set_option autoImplicit false

namespace Slidecast

open Number Files Speech

/-- Settings that are valid have a fallback above zero. -/
theorem Settings.fallback_pos {settings : Settings} (valid : settings.validate = .ok ()) :
    0 < settings.fallback := by
  by_contra notPos
  unfold validate at valid
  simp only [notPos, not_false_eq_true, if_true] at valid
  split_ifs at valid <;> cases valid

namespace Slideshow

/-! ## Whole milliseconds -/

section WholeMillis

variable {millis : Double}

/-- Milliseconds rounded to whole ones, in seconds. -/
def wholeMillis (millis : Double) : Double := millis.round / 1000

theorem roundMillis_eq (seconds : Double) : roundMillis seconds = wholeMillis (seconds * 1000) :=
  rfl

theorem wholeMillis_infinite : wholeMillis (.infinite false) = .infinite false := by
  decide +kernel

/-- Nothing is left of a time with a sign. -/
theorem not_pos_wholeMillis (sign : millis.isNegative = true) : ¬ 0 < wholeMillis millis := by
  intro pos
  have same : (wholeMillis millis).isNegative = true :=
    Binary.isNegative_div ((Binary.isNegative_round millis).trans sign) Binary.hasValue_thousand.1
      (by decide +kernel)
  rw [Binary.isNegative_eq_false_of_pos pos] at same
  cases same

/-- Whole milliseconds are counted exactly, and rounded once when they become seconds. -/
theorem exists_wholeMillis_eq (finite : millis.isFinite = true) (nonneg : 0 ≤ millis.toRat) :
    ∃ zeroSign, wholeMillis millis = Binary.nearest zeroSign (⌊millis.toRat + 1 / 2⌋ / 1000) := by
  obtain ⟨roundFinite, roundValue⟩ := Binary.hasValue_round finite nonneg
  obtain ⟨zeroSign, quotient⟩ := Binary.exists_div_eq roundFinite Binary.hasValue_thousand.1
    (by rw [Binary.hasValue_thousand.2]; norm_num)
  rw [roundValue, Binary.hasValue_thousand.2] at quotient
  exact ⟨zeroSign, quotient⟩

theorem hasValue_wholeMillis (finite : millis.isFinite = true) (nonneg : 0 ≤ millis.toRat) :
    (wholeMillis millis).HasValue
      (Binary.rounded Format.double (⌊millis.toRat + 1 / 2⌋ / 1000)) := by
  obtain ⟨roundFinite, roundValue⟩ := Binary.hasValue_round finite nonneg
  have count : (0 : Rat) ≤ ⌊millis.toRat + 1 / 2⌋ := by
    exact_mod_cast Int.floor_nonneg.2 (by linarith : 0 ≤ millis.toRat + 1 / 2)
  obtain ⟨zeroSign, same⟩ := exists_wholeMillis_eq finite nonneg
  rw [same]
  refine Binary.hasValue_nearest zeroSign (div_nonneg count (by norm_num)) ?_
  have less : (⌊millis.toRat + 1 / 2⌋ : Rat) / 1000 ≤ ⌊millis.toRat + 1 / 2⌋ := by linarith
  have whole := Binary.rounded_toRat roundFinite (roundValue ▸ count)
  have within := Binary.toRat_lt_limit roundFinite (roundValue ▸ count)
  rw [roundValue] at whole within
  calc Binary.rounded Format.double (⌊millis.toRat + 1 / 2⌋ / 1000)
      ≤ Binary.rounded Format.double ⌊millis.toRat + 1 / 2⌋ :=
        Binary.rounded_mono (div_nonneg count (by norm_num)) less
    _ < Format.double.limit := whole.symm ▸ within

/-- A millisecond is written as something. -/
theorem lt_rounded_millisecond : 1 / 2000 < Binary.rounded Format.double (1 / 1000) := by
  decide +kernel

/-- What is left after rounding is a millisecond or more. -/
theorem lt_toRat_wholeMillis (finite : millis.isFinite = true) (half : 1 / 2 ≤ millis.toRat) :
    1 / 2000 < (wholeMillis millis).toRat := by
  have one : (1 : Rat) ≤ ⌊millis.toRat + 1 / 2⌋ := by
    exact_mod_cast Int.le_floor.2 (by push_cast; linarith : ((1 : Int) : Rat) ≤ _)
  rw [(hasValue_wholeMillis finite (by linarith)).2]
  exact lt_rounded_millisecond.trans_le (Binary.rounded_mono (by norm_num) (by linarith))

/-- **Something is left exactly from half a millisecond on.** -/
theorem pos_wholeMillis_iff (finite : millis.isFinite = true) (nonneg : 0 ≤ millis.toRat) :
    0 < wholeMillis millis ↔ 1 / 2 ≤ millis.toRat := by
  have value := hasValue_wholeMillis finite nonneg
  rw [Binary.lt_iff_toRat_lt Binary.isFinite_literal_zero value.1, Binary.toRat_literal_zero]
  constructor
  · intro pos
    by_contra small
    have floor : ⌊millis.toRat + 1 / 2⌋ = 0 := Int.floor_eq_zero_iff.2 ⟨by linarith, by linarith⟩
    rw [value.2, floor, Int.cast_zero, zero_div, Binary.rounded_zero] at pos
    exact lt_irrefl _ pos
  · intro half
    have left := lt_toRat_wholeMillis finite half
    linarith

end WholeMillis

/-! ## From a cut to the next one -/

section Gaps

variable {row : List Double} {fallback millis : Double}

/-- The time from the first cut to the next one in milliseconds, if there are two. -/
def gapMillis? : List Double → Option Double
  | start :: stop :: _ => some ((stop - start) * 1000)
  | _ => none

/-- The first picture is shown as long as the fallback says. -/
def FallsBack (row : List Double) : Prop :=
  ∀ millis, gapMillis? row = some millis → ¬ 0 < wholeMillis millis

instance (row : List Double) : Decidable (FallsBack row) :=
  decidable_of_iff ((gapMillis? row).all (fun millis => !decide (0 < wholeMillis millis)) = true)
    (by rw [FallsBack]; cases gapMillis? row <;> simp)

theorem durationAt_of_fallsBack (falls : FallsBack row) : durationAt fallback row = fallback := by
  unfold durationAt
  split
  · exact if_neg (falls _ rfl)
  · rfl

theorem exists_durationAt_eq (fallback : Double) (holds : ¬ FallsBack row) :
    ∃ millis, gapMillis? row = some millis ∧ 0 < wholeMillis millis ∧
      durationAt fallback row = wholeMillis millis := by
  simp only [FallsBack, not_forall, not_not] at holds
  obtain ⟨millis, gap, pos⟩ := holds
  refine ⟨millis, gap, pos, ?_⟩
  match row, gap with
  | _ :: _ :: _, gap =>
      obtain rfl := Option.some.inj gap
      exact if_pos pos

/-- The time from a cut to the next one is a number: finite, or too large in one direction. -/
theorem isNaN_gapMillis (finite : ∀ p ∈ row, p.isFinite = true)
    (gap : gapMillis? row = some millis) : millis.isNaN = false := by
  match row, gap with
  | start :: stop :: _, gap =>
      obtain rfl := Option.some.inj gap
      obtain ⟨zeroSign, difference⟩ := Binary.exists_sub_eq (finite stop (by simp))
        (finite start (by simp))
      rw [difference]
      have number : (Binary.nearest zeroSign (stop.toRat - start.toRat) : Double).isNaN = false :=
        Binary.isNaN_nearest _ _
      generalize (Binary.nearest zeroSign (stop.toRat - start.toRat) : Double) = time at *
      by_cases within : time.isFinite = true
      · obtain ⟨zeroSign', product⟩ := Binary.exists_mul_eq within Binary.hasValue_thousand.1
        rw [product]
        exact Binary.isNaN_nearest _ _
      · have large : ∀ negative,
            (Binary.infinite negative * 1000 : Double) = .infinite negative := by
          decide +kernel
        cases time with
        | nan => cases number
        | infinite negative => rw [large]; rfl
        | finite => exact absurd rfl within

/-- The durations of a row of slides, by their cuts. -/
theorem map_duration_slides (fallback : Double) (paths : List Path) (row : List Double) :
    (slides fallback paths row).map Slide.duration =
      (List.range paths.length).map fun index => durationAt fallback (row.drop index) := by
  induction paths generalizing row with
  | nil => rfl
  | cons path paths ih =>
      rw [slides, List.map_cons, ih, List.length_cons, List.range_succ_eq_map, List.map_cons,
        List.map_map, List.drop_zero]
      simp only [Function.comp_def, List.drop_tail]

end Gaps

/-! ## Texts of durations -/

/-- The texts of the durations in a playlist. -/
def durationTexts? (text : String) : Option (List String) :=
  (entries? text.toList).map (·.filterMap Entry.duration)

theorem durationTexts?_playlist (slides : List Slide) :
    durationTexts? (playlist slides) = some (slides.map fun slide => slide.duration.fixed 3) := by
  have all : ∀ rest : Option Slide, (slides.map entryOf ++
      (rest.map fun slide => (⟨slide.path.asShown, none⟩ : Entry)).toList).filterMap Entry.duration =
        slides.map fun slide => slide.duration.fixed 3 := by
    intro rest
    rw [List.filterMap_append, List.filterMap_map]
    have own : Entry.duration ∘ entryOf = fun slide => some (slide.duration.fixed 3) := rfl
    rw [own, List.filterMap_eq_map']
    cases rest <;> simp
  rw [durationTexts?, entries?_playlist, Option.map_some, all]

/-- The texts of the durations of a row of slides, by their cuts. -/
theorem durationTexts?_slides (fallback : Double) (paths : List Path) (row : List Double) :
    durationTexts? (playlist (slides fallback paths row)) =
      some ((List.range paths.length).map fun index =>
        (durationAt fallback (row.drop index)).fixed 3) := by
  have durations := congrArg (List.map (Binary.fixed 3)) (map_duration_slides fallback paths row)
  rw [List.map_map, List.map_map] at durations
  rw [durationTexts?_playlist]
  exact congrArg some durations

/-- A text is read as a finite number above zero. -/
def ReadsAboveZero (text : String) : Prop :=
  ∃ seconds : Double, Binary.read? text = some seconds ∧ seconds.isFinite = true ∧ 0 < seconds

instance (text : String) : Decidable (ReadsAboveZero text) :=
  decidable_of_iff
    ((Binary.read? text : Option Double).any (fun seconds =>
      seconds.isFinite && decide (0 < seconds)) = true)
    (by rw [ReadsAboveZero]; cases (Binary.read? text : Option Double) <;> simp)

/-- **What is above zero when it is written**: a finite time of more than half a millisecond. -/
theorem readsAboveZero_fixed_iff {x : Double} (pos : 0 < x) :
    ReadsAboveZero (x.fixed 3) ↔ x.isFinite = true ∧ 1 / 2000 < x.toRat := by
  have sign := Binary.isNegative_eq_false_of_pos pos
  cases x with
  | nan =>
      have zero : (0 : Double) = Binary.zero false := Binary.ofNat_zero
      rw [zero] at pos
      cases pos
  | infinite negative =>
      obtain rfl : negative = false := sign
      have read : Binary.read? ((Binary.infinite false : Double).fixed 3) =
          some (.infinite false : Double) := by
        decide +kernel
      simp [ReadsAboveZero, read, Binary.isFinite]
  | finite negative m e canonical =>
      generalize same : (Binary.finite negative m e canonical : Double) = x at *
      have finite : x.isFinite = true := same ▸ rfl
      have nonneg := Binary.toRat_nonneg_of_isNegative_eq_false sign
      obtain ⟨y, read, yFinite, value⟩ := Binary.exists_read?_fixed finite sign 3
      have counted : 0 < y ↔ 0 < x.units 3 := by
        rw [Binary.lt_iff_toRat_lt Binary.isFinite_literal_zero yFinite, value,
          Binary.toRat_literal_zero]
        constructor
        · intro above
          by_contra nothing
          rw [Nat.eq_zero_of_not_pos nothing, Nat.cast_zero, zero_div, Binary.rounded_zero] at above
          exact lt_irrefl _ above
        · intro something
          have one : (1 : Rat) ≤ x.units 3 := by exact_mod_cast something
          have least := lt_rounded_millisecond.trans_le (Binary.rounded_mono (by norm_num)
            (by linarith : (1 : Rat) / 1000 ≤ x.units 3 / 10 ^ 3))
          linarith
      have half : 0 < x.units 3 ↔ 1 / 2000 < x.toRat := by
        rw [Binary.units_pos_iff finite nonneg]
        constructor <;> intro above <;> linarith
      rw [← half, ← counted, and_iff_right finite, ReadsAboveZero, read]
      simp [yFinite]

/-- A time that leaves something is written as something, unless it is too large. -/
theorem readsAboveZero_wholeMillis_iff {millis : Double} (number : millis.isNaN = false)
    (pos : 0 < wholeMillis millis) :
    ReadsAboveZero ((wholeMillis millis).fixed 3) ↔ millis ≠ .infinite false := by
  rw [readsAboveZero_fixed_iff pos]
  have sign : millis.isNegative = false := by
    by_contra negative
    exact not_pos_wholeMillis (Bool.not_eq_false _ ▸ negative) pos
  cases millis with
  | nan => cases number
  | infinite negative =>
      obtain rfl : negative = false := sign
      rw [wholeMillis_infinite]
      simp [Binary.isFinite]
  | finite negative m e canonical =>
      generalize same : (Binary.finite negative m e canonical : Double) = millis at *
      have finite : millis.isFinite = true := same ▸ rfl
      have nonneg := Binary.toRat_nonneg_of_isNegative_eq_false sign
      have half := (pos_wholeMillis_iff finite nonneg).1 pos
      have other : millis ≠ .infinite false := by
        rintro rfl
        cases finite
      exact iff_of_true
        ⟨(hasValue_wholeMillis finite nonneg).1, lt_toRat_wholeMillis finite half⟩ other

/-! ## Durations above zero -/

/-- The duration of one picture is above zero as it is written: its time is not too large, and if
there is none, the fallback is fine. -/
theorem readsAboveZero_durationAt_iff (row : List Double) {fallback : Double}
    (finite : ∀ p ∈ row, p.isFinite = true) (pos : 0 < fallback) :
    ReadsAboveZero ((durationAt fallback row).fixed 3) ↔
      gapMillis? row ≠ some (.infinite false) ∧
        (FallsBack row → fallback.isFinite = true ∧ 1 / 2000 < fallback.toRat) := by
  by_cases falls : FallsBack row
  · -- a time that is too large is above zero, and would have been taken
    have notLarge : gapMillis? row ≠ some (.infinite false) := by
      intro large
      refine falls _ large ?_
      rw [wholeMillis_infinite]
      decide +kernel
    rw [durationAt_of_fallsBack falls, readsAboveZero_fixed_iff pos, and_iff_right notLarge,
      imp_iff_right falls]
  · obtain ⟨millis, gap, left, duration⟩ := exists_durationAt_eq fallback falls
    rw [duration, readsAboveZero_wholeMillis_iff (isNaN_gapMillis finite gap) left, gap]
    simp [falls]

/-- **When all durations are above zero.**  The playlist has a duration for each picture.  With
valid settings, all of them are read as finite numbers above zero exactly when no time from a cut
to the next one is too large in milliseconds and the fallback, if it is used, is finite and more
than half a millisecond. -/
theorem durations_above_zero_iff (settings : Settings) (t : Transcript) (markers : List String)
    (pictures : List Path) (valid : settings.validate = .ok ()) :
    ∃ texts, durationTexts? (playlist (slidesOf t settings.fallback markers pictures)) =
        some texts ∧
      texts.length = pictures.length ∧
      ((∀ text ∈ texts, ReadsAboveZero text) ↔
        (∀ index < pictures.length,
          gapMillis? ((cuts t pictures.length markers).2.drop index) ≠ some (.infinite false)) ∧
        ((∃ index < pictures.length, FallsBack ((cuts t pictures.length markers).2.drop index)) →
          settings.fallback.isFinite = true ∧ 1 / 2000 < settings.fallback.toRat)) := by
  have one (index : Nat) := readsAboveZero_durationAt_iff
    ((cuts t pictures.length markers).2.drop index)
    (fun p member => isFinite_cuts p (List.mem_of_mem_drop member)) (Settings.fallback_pos valid)
  refine ⟨_, durationTexts?_slides _ _ _, by simp, ?_⟩
  rw [List.forall_mem_map]
  simp only [List.mem_range, one]
  constructor
  · intro all
    exact ⟨fun index within => (all index within).1,
      fun ⟨index, within, falls⟩ => (all index within).2 falls⟩
  · rintro ⟨notLarge, fallbackFine⟩ index within
    exact ⟨notLarge index within, fun falls => fallbackFine ⟨index, within, falls⟩⟩

/-- A speech of one word, which leaves no time for a second picture. -/
def oneWord : Transcript := ⟨[⟨"a", 0, 1⟩], by decide +kernel⟩

/-- The second picture is shown as long as the usual fallback says. -/
theorem durations_above_zero_oneWord :
    ({} : Settings).validate = .ok () ∧
    ∃ texts, durationTexts? (playlist (slidesOf oneWord ({} : Settings).fallback ["a"]
        [⟨"p"⟩, ⟨"q"⟩])) = some texts ∧
      texts.length = 2 ∧ ∀ text ∈ texts, ReadsAboveZero text := by
  have valid : ({} : Settings).validate = .ok () := by decide +kernel
  obtain ⟨texts, written, count, aboveZero⟩ :=
    durations_above_zero_iff {} oneWord ["a"] [⟨"p"⟩, ⟨"q"⟩] valid
  exact ⟨valid, texts, written, count, aboveZero.2 ⟨by decide +kernel, fun _ => by decide +kernel⟩⟩

/-- A speech of one word that lasts longer than milliseconds can be counted. -/
def endlessWord : Transcript := ⟨[⟨"a", 0, 1e306⟩], by decide +kernel⟩

/-- With valid settings, a duration can be written that is not finite, and one that is zero. -/
theorem durations_not_above_zero :
    (({} : Settings).validate = .ok () ∧
      durationTexts? (playlist (slidesOf endlessWord ({} : Settings).fallback [] [⟨"p"⟩])) =
        some ["inf"] ∧
      ¬ ReadsAboveZero "inf") ∧
    (({ fallback := 0.0004 } : Settings).validate = .ok () ∧
      durationTexts? (playlist (slidesOf oneWord ({ fallback := 0.0004 } : Settings).fallback ["a"]
        [⟨"p"⟩, ⟨"q"⟩])) = some ["1.000", "0.000"] ∧
      ¬ ReadsAboveZero "0.000") := by
  refine ⟨⟨by decide +kernel, ?_, by decide +kernel⟩, by decide +kernel, ?_, by decide +kernel⟩
  · rw [durationTexts?_playlist]
    decide +kernel
  · rw [durationTexts?_playlist]
    decide +kernel

end Slideshow

end Slidecast
