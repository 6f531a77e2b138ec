import Slidecast.Proofs.Slideshow.Durations

/-!
# The time from a cut to the next one

The time between two cuts is rounded four times before it is written: when the cuts are
subtracted, when it is taken in milliseconds, to whole milliseconds, and when it becomes seconds
again; and then it is written with three places.  Below `2 ^ 42` seconds the whole milliseconds
are those that are written, and they are less than one off (`Measured.abs_written_sub_le_of_lt`).
Beyond, each rounding adds a small part of the time (`Measured.abs_written_sub_le_mul`).  Where no
millisecond is left, there was at most half of one (`Measured.gap_le_of_not_pos`).
-/

set_option autoImplicit false

namespace Slidecast.Slideshow

open Number

/-! ## Written seconds -/

section Written

variable {duration : Double}

/-- The seconds that a text says. -/
def seconds? (text : String) : Option Rat :=
  (Binary.decimalOfText? text.toList).map Decimal.toRat

/-- The seconds that are written for a duration. -/
def written (duration : Double) : Rat := duration.units 3 / 1000

theorem seconds?_fixed (finite : duration.isFinite = true) (sign : duration.isNegative = false) :
    seconds? (duration.fixed 3) = some (written duration) := by
  rw [seconds?, Binary.decimalOfText?_fixed finite sign, Option.map_some, Binary.toRat_ofPlaces,
    written]
  norm_num

theorem abs_written_sub_le (finite : duration.isFinite = true) (nonneg : 0 ≤ duration.toRat) :
    |written duration - duration.toRat| ≤ 1 / 2000 := by
  have near := Binary.abs_toRat_ofPlaces_sub_le finite nonneg 3
  rw [Binary.toRat_ofPlaces] at near
  norm_num at near
  rw [written]
  linarith

/-- A duration that is nearly a whole number of milliseconds is written as this number. -/
theorem written_eq_of_abs_lt {k : Int} (finite : duration.isFinite = true)
    (nonneg : 0 ≤ duration.toRat) (near : |duration.toRat * 1000 - k| < 1 / 2) :
    written duration = k / 1000 := by
  have counted := Binary.abs_units_sub_le finite nonneg 3
  have close : |(((duration.units 3 : Int) - k : Int) : Rat)| < 1 := by
    push_cast
    calc |(duration.units 3 : Rat) - k|
        ≤ |(duration.units 3 : Rat) - duration.toRat * 1000| + |duration.toRat * 1000 - k| :=
          abs_sub_le _ _ _
      _ < 1 := by norm_num at counted ⊢; linarith
  have same : (duration.units 3 : Int) = k := by
    rw [← Int.cast_abs] at close
    exact sub_eq_zero.1 (Int.abs_lt_one_iff.1 (by exact_mod_cast close))
  rw [written, ← same, Int.cast_natCast]

end Written

/-! ## From a cut to the next one -/

section Gap

variable {start stop : Double}

/-- Two cuts, the first one before the other and none before zero, whose times can be counted in
milliseconds. -/
structure Measured (start stop : Double) : Prop where
  startFinite : start.isFinite = true
  stopFinite : stop.isFinite = true
  nonneg : 0 ≤ start.toRat
  forth : start.toRat ≤ stop.toRat
  within : Binary.rounded Format.double (stop.toRat * 1000) < Format.double.limit

namespace Measured

/-- The time between two cuts, as a number. -/
theorem hasValue_sub (cuts : Measured start stop) :
    (stop - start).HasValue (Binary.rounded Format.double (stop.toRat - start.toRat)) := by
  obtain ⟨zeroSign, difference⟩ := Binary.exists_sub_eq cuts.stopFinite cuts.startFinite
  rw [difference]
  refine Binary.hasValue_nearest zeroSign (sub_nonneg.2 cuts.forth) ?_
  exact (Binary.rounded_le_toRat cuts.stopFinite (sub_nonneg.2 cuts.forth)
    (sub_le_self _ cuts.nonneg)).trans_lt
      (Binary.toRat_lt_limit cuts.stopFinite (cuts.nonneg.trans cuts.forth))

theorem toRat_sub_nonneg (cuts : Measured start stop) : 0 ≤ (stop - start).toRat := by
  rw [cuts.hasValue_sub.2]
  exact Binary.rounded_nonneg (sub_nonneg.2 cuts.forth)

theorem toRat_sub_le (cuts : Measured start stop) : (stop - start).toRat ≤ stop.toRat := by
  rw [cuts.hasValue_sub.2]
  exact Binary.rounded_le_toRat cuts.stopFinite (sub_nonneg.2 cuts.forth)
    (sub_le_self _ cuts.nonneg)

/-- The time between two cuts in milliseconds. -/
theorem hasValue_millis (cuts : Measured start stop) :
    ((stop - start) * 1000).HasValue
      (Binary.rounded Format.double ((stop - start).toRat * 1000)) := by
  have nonneg := cuts.toRat_sub_nonneg
  obtain ⟨zeroSign, product⟩ := Binary.exists_mul_eq cuts.hasValue_sub.1 Binary.hasValue_thousand.1
  rw [product, Binary.hasValue_thousand.2]
  refine Binary.hasValue_nearest zeroSign (by linarith) (lt_of_le_of_lt ?_ cuts.within)
  exact Binary.rounded_mono (by linarith) (by linarith [cuts.toRat_sub_le])

theorem toRat_millis_nonneg (cuts : Measured start stop) :
    0 ≤ ((stop - start) * 1000).toRat := by
  rw [cuts.hasValue_millis.2]
  exact Binary.rounded_nonneg (by linarith [cuts.toRat_sub_nonneg])

/-- Half a millisecond is not lost by rounding. -/
theorem rounded_half_millisecond :
    Binary.rounded Format.double (Binary.rounded Format.double (1 / 2000) * 1000) = 1 / 2 := by
  decide +kernel

/-- A time of which nothing is left was at most half a millisecond. -/
theorem gap_le_of_not_pos (cuts : Measured start stop) (brief : ¬ 0 < roundMillis (stop - start)) :
    stop.toRat - start.toRat ≤ 1 / 2000 := by
  by_contra long
  refine brief ?_
  rw [roundMillis_eq, pos_wholeMillis_iff cuts.hasValue_millis.1 cuts.toRat_millis_nonneg,
    cuts.hasValue_millis.2, cuts.hasValue_sub.2, ← rounded_half_millisecond]
  have first : Binary.rounded Format.double (1 / 2000) ≤
      Binary.rounded Format.double (stop.toRat - start.toRat) :=
    Binary.rounded_mono (by norm_num) (not_le.1 long).le
  have nonneg : 0 ≤ Binary.rounded Format.double (1 / 2000) := Binary.rounded_nonneg (by norm_num)
  exact Binary.rounded_mono (by linarith) (by linarith)

/-- The milliseconds are rounded to a whole number of them, and this becomes seconds. -/
theorem exists_count (cuts : Measured start stop) :
    ∃ k : Int, 0 ≤ k ∧ ((stop - start) * 1000).toRat - 1 / 2 < k ∧
      k ≤ ((stop - start) * 1000).toRat + 1 / 2 ∧
      (roundMillis (stop - start)).HasValue (Binary.rounded Format.double (k / 1000)) := by
  have nonneg := cuts.toRat_millis_nonneg
  have high := Int.lt_floor_add_one (((stop - start) * 1000).toRat + 1 / 2)
  exact ⟨_, Int.floor_nonneg.2 (by linarith), by linarith, Int.floor_le _,
    hasValue_wholeMillis cuts.hasValue_millis.1 nonneg⟩

/-- Below `2 ^ 42` seconds, the whole milliseconds are what is written: as seconds, they are less
than half a millisecond off. -/
theorem exists_written_eq (cuts : Measured start stop) (small : stop.toRat < 2 ^ 42) :
    ∃ k : Int, ((stop - start) * 1000).toRat - 1 / 2 < k ∧
      k ≤ ((stop - start) * 1000).toRat + 1 / 2 ∧
      written (roundMillis (stop - start)) = k / 1000 := by
  have gapSmall := cuts.toRat_sub_le
  obtain ⟨k, counts, least, most, finite, duration⟩ := cuts.exists_count
  have count : (0 : Rat) ≤ k := by exact_mod_cast counts
  have bound : ((stop - start) * 1000).toRat ≤ 2 ^ (52 : Int) := by
    have fixed : Binary.rounded Format.double (2 ^ (52 : Int)) = 2 ^ (52 : Int) :=
      Binary.rounded_two_zpow (by decide)
    rw [cuts.hasValue_millis.2, ← fixed]
    refine Binary.rounded_mono (by linarith [cuts.toRat_sub_nonneg]) ?_
    norm_num at small ⊢
    linarith
  have near := Binary.abs_rounded_sub_le_of_lt (f := Format.double) (e := 43)
    (by linarith : 0 ≤ (k : Rat) / 1000) (by norm_num at bound ⊢; linarith) (by decide)
  rw [← duration, abs_le] at near
  refine ⟨k, least, most, written_eq_of_abs_lt finite ?_ ?_⟩
  · rw [duration]
    exact Binary.rounded_nonneg (by linarith)
  · rw [abs_lt]
    norm_num [Format.double] at near ⊢
    constructor <;> linarith

/-- **A time of less than `2 ^ 42` seconds is written up to a millisecond**: a quarter of one is
lost at most when the cuts are subtracted, another quarter when milliseconds are taken, and half
of one when they are rounded. -/
theorem abs_written_sub_le_of_lt (cuts : Measured start stop) (small : stop.toRat < 2 ^ 42) :
    |written (roundMillis (stop - start)) - (stop.toRat - start.toRat)| ≤ 1 / 1000 := by
  have gapNonneg := cuts.toRat_sub_nonneg
  have gapSmall := cuts.toRat_sub_le
  have startNonneg := cuts.nonneg
  obtain ⟨k, least, most, same⟩ := cuts.exists_written_eq small
  have subtracted := Binary.abs_rounded_sub_le_of_lt (f := Format.double) (e := 42)
    (sub_nonneg.2 cuts.forth) (by norm_num at small ⊢; linarith) (by decide)
  have scaled := Binary.abs_rounded_sub_le_of_lt (f := Format.double) (e := 52)
    (by linarith : 0 ≤ (stop - start).toRat * 1000) (by norm_num at small ⊢; linarith) (by decide)
  rw [← cuts.hasValue_sub.2, abs_le] at subtracted
  rw [← cuts.hasValue_millis.2, abs_le] at scaled
  rw [same, abs_le]
  norm_num [Format.double] at subtracted scaled
  constructor <;> linarith

/-- **Any time is written up to a millisecond and a small part of itself**: where something is
left, each of the roundings to 64 bits has a relative error. -/
theorem abs_written_sub_le_mul (cuts : Measured start stop)
    (left : 0 < roundMillis (stop - start)) :
    |written (roundMillis (stop - start)) - (stop.toRat - start.toRat)| ≤
      1 / 1000 + (stop.toRat - start.toRat) / 2 ^ 50 := by
  obtain ⟨k, counts, least, most, durationFinite, duration⟩ := cuts.exists_count
  rw [roundMillis_eq, pos_wholeMillis_iff cuts.hasValue_millis.1 cuts.toRat_millis_nonneg] at left
  have gapNonneg := cuts.toRat_sub_nonneg
  have quarter : 1 / 4 < (stop - start).toRat * 1000 := by
    refine Binary.lt_of_lt_rounded (f := Format.double) (by linarith) (by decide +kernel) ?_
    rw [← cuts.hasValue_millis.2]
    linarith
  have long : 1 / 4096 < stop.toRat - start.toRat := by
    refine Binary.lt_of_lt_rounded (f := Format.double) (sub_nonneg.2 cuts.forth)
      (by decide +kernel) ?_
    rw [← cuts.hasValue_sub.2]
    linarith
  have one : (1 : Rat) ≤ k := by
    have pos : 0 < k := by exact_mod_cast (by linarith : (0 : Rat) < k)
    exact_mod_cast pos
  have tiny : (1 : Rat) / 2 ^ 40 ≤ 1 / 4096 := by norm_num
  have subtracted := Binary.abs_rounded_sub_le_part (tiny.trans long.le)
  have scaled := Binary.abs_rounded_sub_le_part
    (tiny.trans (by linarith : 1 / 4096 ≤ (stop - start).toRat * 1000))
  have divided := Binary.abs_rounded_sub_le_part
    (tiny.trans (by linarith : 1 / 4096 ≤ (k : Rat) / 1000))
  have printed := abs_written_sub_le durationFinite
    (duration ▸ Binary.rounded_nonneg (by linarith))
  rw [← cuts.hasValue_sub.2, abs_le] at subtracted
  rw [← cuts.hasValue_millis.2, abs_le] at scaled
  rw [← duration, abs_le] at divided
  rw [abs_le] at printed ⊢
  norm_num at subtracted scaled divided ⊢
  constructor <;> linarith

end Measured

end Gap

end Slidecast.Slideshow
