import Slidecast.Proofs.Slideshow.Gaps

/-!
# Slides in time with their cuts

A slide lasts from its cut to the next one where there are two and something is left of the time
between them, in whole milliseconds, and as long as the fallback says everywhere else
(`HasTime.durationAt_eq`, `durationAt_eq_fallback`).  The cuts may be any times of up to a million
seconds, in any order: if the next one is earlier, nothing is left (`le_of_pos_roundMillis`).

Every time is rounded on its own, by hardly more than half a millisecond (`Timed.near`).  As long as
no slide takes the fallback, the times between the cuts add up to what lies between the first cut
and the last one, so that the errors do no more than add up (`exists_abs_sum_take_sub_le`).
-/

set_option autoImplicit false

namespace Slidecast.Slideshow

open Number Files

/-! ## One slide -/

section Slides

variable {row : List Double} {start stop fallback : Double} {index : Nat}

/-- The slides of a row of pictures, one by one. -/
theorem getElem?_slides (fallback : Double) (pictures : List Path) (row : List Double)
    (index : Nat) :
    (slides fallback pictures row)[index]? =
      pictures[index]?.map fun picture => ⟨picture, durationAt fallback (row.drop index)⟩ := by
  induction pictures generalizing row index with
  | nil => rfl
  | cons picture pictures ih =>
      cases index with
      | zero => rfl
      | succ index =>
          rw [slides, List.getElem?_cons_succ, List.getElem?_cons_succ, ih, List.drop_tail]

theorem duration_of_getElem? {pictures : List Path} {slide : Slide}
    (found : (slides fallback pictures row)[index]? = some slide) :
    slide.duration = durationAt fallback (row.drop index) := by
  rw [getElem?_slides, Option.map_eq_some_iff] at found
  obtain ⟨picture, _, rfl⟩ := found
  rfl

/-- A row has a cut and a next one, and something is left of the time between them. -/
structure HasTime (row : List Double) (index : Nat) (start stop : Double) : Prop where
  begins : row[index]? = some start
  ends : row[index + 1]? = some stop
  left : 0 < roundMillis (stop - start)

theorem HasTime.tail (time : HasTime row (index + 1) start stop) :
    HasTime row.tail index start stop where
  begins := List.getElem?_tail.trans time.begins
  ends := List.getElem?_tail.trans time.ends
  left := time.left

theorem HasTime.durationAt_eq (time : HasTime row index start stop) (fallback : Double) :
    durationAt fallback (row.drop index) = roundMillis (stop - start) := by
  have first : (row.drop index)[0]? = some start := by simpa using time.begins
  have second : (row.drop index)[1]? = some stop := by simpa using time.ends
  generalize row.drop index = rest at first second
  match rest with
  | [] => cases first
  | [_] => cases second
  | a :: b :: _ =>
      obtain rfl : a = start := Option.some.inj first
      obtain rfl : b = stop := Option.some.inj second
      exact if_pos time.left

theorem durationAt_eq_fallback (untimed : ∀ start stop, ¬ HasTime row index start stop)
    (fallback : Double) : durationAt fallback (row.drop index) = fallback := by
  refine durationAt_of_fallsBack fun millis gap left => ?_
  have first : (row.drop index)[0]? = row[index]? := by simp
  have second : (row.drop index)[1]? = row[index + 1]? := by simp
  generalize row.drop index = rest at first second gap
  match rest, gap with
  | start :: stop :: _, gap =>
      obtain rfl := Option.some.inj gap
      exact untimed start stop ⟨first.symm, second.symm, left⟩

/-- A slide lasts for some time, if the fallback does. -/
theorem durationAt_pos (row : List Double) (pos : 0 < fallback) : 0 < durationAt fallback row := by
  by_cases falls : FallsBack row
  · rwa [durationAt_of_fallsBack falls]
  · obtain ⟨_, _, left, duration⟩ := exists_durationAt_eq fallback falls
    rwa [duration]

end Slides

/-! ## The time of one slide -/

section Timed

variable {start stop duration : Double}

/-- Nothing is left of a time that goes back. -/
theorem le_of_pos_roundMillis (startFinite : start.isFinite = true)
    (stopFinite : stop.isFinite = true) (left : 0 < roundMillis (stop - start)) :
    start.toRat ≤ stop.toRat := by
  by_contra back
  have difference := Binary.isNegative_sub stopFinite startFinite (not_le.1 back)
  exact not_pos_wholeMillis
    (Binary.isNegative_mul difference Binary.hasValue_thousand.1 (by decide +kernel)) left

/-- A time of at most a million seconds, and not before zero. -/
def IsUsual (cut : Double) : Prop := 0 ≤ cut ∧ cut ≤ 1000000

instance (cut : Double) : Decidable (IsUsual cut) := inferInstanceAs (Decidable (_ ∧ _))

theorem hasValue_million : (1000000 : Double).HasValue 1000000 := by decide +kernel

theorem IsUsual.isFinite {cut : Double} (usual : IsUsual cut) : cut.isFinite = true :=
  Binary.isFinite_of_between Binary.isFinite_literal_zero hasValue_million.1 usual.1 usual.2

theorem IsUsual.nonneg {cut : Double} (usual : IsUsual cut) : 0 ≤ cut.toRat := by
  have low := (Binary.le_iff_toRat_le Binary.isFinite_literal_zero usual.isFinite).1 usual.1
  rwa [Binary.toRat_literal_zero] at low

theorem IsUsual.toRat_le {cut : Double} (usual : IsUsual cut) : cut.toRat ≤ 1000000 := by
  have high := (Binary.le_iff_toRat_le usual.isFinite hasValue_million.1).1 usual.2
  rwa [hasValue_million.2] at high

/-- Usual times can be counted in milliseconds, if they go on. -/
theorem measured_of_isUsual (first : IsUsual start) (second : IsUsual stop)
    (forth : start.toRat ≤ stop.toRat) : Measured start stop where
  startFinite := first.isFinite
  stopFinite := second.isFinite
  nonneg := first.nonneg
  forth := forth
  within := by
    have low := second.nonneg
    have high := second.toRat_le
    exact Binary.rounded_lt_limit_double (e := 30) (by linarith) (by norm_num; linarith)
      (by decide) (by decide)

/-- A duration is the number nearest to some whole milliseconds, at least one, which are hardly more
than half a millisecond off the time from a cut to the next one. -/
structure Timed (duration start stop : Double) : Prop where
  whole : ∃ millis : Nat, 1 ≤ millis ∧
    duration.HasValue (Binary.rounded Format.double (millis / 1000)) ∧
    |(millis : Rat) - 1000 * (stop.toRat - start.toRat)| ≤ 1 / 2 + 1 / 1000000
  near : |duration.toRat - (stop.toRat - start.toRat)| ≤ 501 / 1000000

/-- **The time of one slide.** -/
theorem timed_roundMillis (first : IsUsual start) (second : IsUsual stop)
    (left : 0 < roundMillis (stop - start)) : Timed (roundMillis (stop - start)) start stop := by
  have cuts := measured_of_isUsual first second
    (le_of_pos_roundMillis first.isFinite second.isFinite left)
  obtain ⟨k, counts, least, most, duration⟩ := cuts.exists_count
  rw [roundMillis_eq, pos_wholeMillis_iff cuts.hasValue_millis.1 cuts.toRat_millis_nonneg] at left
  obtain ⟨millis, rfl⟩ := Int.eq_ofNat_of_zero_le counts
  rw [Int.cast_natCast] at least most duration
  have gapNonneg := cuts.toRat_sub_nonneg
  have gapSmall := cuts.toRat_sub_le
  have startNonneg := first.nonneg
  have stopSmall := second.toRat_le
  have positive : 1 ≤ millis := by
    have pos : (0 : Rat) < millis := by linarith
    exact_mod_cast pos
  -- each of the three roundings to 64 bits is off by a ten-millionth of a millisecond at most
  have subtracted := Binary.abs_rounded_sub_le_of_lt (f := Format.double) (e := 20)
    (sub_nonneg.2 cuts.forth) (by norm_num; linarith) (by decide)
  have scaled := Binary.abs_rounded_sub_le_of_lt (f := Format.double) (e := 30)
    (by linarith : 0 ≤ (stop - start).toRat * 1000) (by norm_num; linarith) (by decide)
  rw [← cuts.hasValue_sub.2, abs_le] at subtracted
  rw [← cuts.hasValue_millis.2, abs_le] at scaled
  norm_num [Format.double] at subtracted scaled
  have divided := Binary.abs_rounded_sub_le_of_lt (f := Format.double) (e := 20)
    (by positivity : 0 ≤ (millis : Rat) / 1000) (by norm_num; linarith) (by decide)
  rw [← duration.2, abs_le] at divided
  norm_num [Format.double] at divided
  refine ⟨⟨millis, positive, duration, ?_⟩, ?_⟩
  · rw [abs_le]
    constructor <;> linarith
  · rw [abs_le]
    constructor <;> linarith

end Timed

/-! ## All slides -/

section Rows

variable {row : List Double} {fallback : Double} {count : Nat} {first : Double}

/-- **The errors add up, and do no more.**  If the first slides all have their times, they last as
long as lies between the first cut and the cut behind them, up to what each of them is off. -/
theorem exists_abs_sum_take_sub_le (fallback : Double) (pictures : List Path)
    (usual : ∀ cut ∈ row, IsUsual cut) (within : count ≤ pictures.length)
    (timed : ∀ index < count, ∃ start stop, HasTime row index start stop)
    (begins : row[0]? = some first) :
    ∃ last, row[count]? = some last ∧
      |(((slides fallback pictures row).take count).map fun slide => slide.duration.toRat).sum -
          (last.toRat - first.toRat)| ≤ count * (501 / 1000000) := by
  induction count generalizing pictures row first with
  | zero => exact ⟨first, begins, by simp⟩
  | succ count ih =>
      obtain ⟨start, second, time⟩ := timed 0 count.succ_pos
      obtain rfl : start = first := Option.some.inj (time.begins.symm.trans begins)
      match pictures, within with
      | picture :: pictures, within =>
          have one := (timed_roundMillis (usual start (List.mem_of_getElem? time.begins))
            (usual second (List.mem_of_getElem? time.ends)) time.left).near
          obtain ⟨last, isLast, others⟩ := ih pictures
            (fun cut member => usual cut (List.mem_of_mem_tail member))
            (Nat.le_of_succ_le_succ within)
            (fun index below => (timed (index + 1) (Nat.succ_lt_succ below)).imp
              fun _ => Exists.imp fun _ => HasTime.tail)
            (List.getElem?_tail.trans time.ends)
          have duration := time.durationAt_eq fallback
          rw [List.drop_zero] at duration
          rw [List.getElem?_tail] at isLast
          refine ⟨last, isLast, ?_⟩
          rw [slides, List.take_succ_cons, List.map_cons, List.sum_cons, duration]
          rw [abs_le] at one others ⊢
          push_cast
          constructor <;> linarith

/-- What a row of slides keeps of its pictures and its cuts. -/
structure KeepsTime (fallback : Double) (pictures : List Path) (row : List Double)
    (made : List Slide) : Prop where
  paths : made.map Slide.path = pictures
  positive : ∀ slide ∈ made, 0 < slide.duration
  timed : ∀ index slide start stop, made[index]? = some slide → HasTime row index start stop →
    slide.duration = roundMillis (stop - start) ∧ Timed slide.duration start stop
  untimed : ∀ index slide, made[index]? = some slide →
    (∀ start stop, ¬ HasTime row index start stop) → slide.duration = fallback
  adds : ∀ count ≤ made.length, (∀ index < count, ∃ start stop, HasTime row index start stop) →
    ∀ first, row[0]? = some first → ∃ last, row[count]? = some last ∧
      |((made.take count).map fun slide => slide.duration.toRat).sum -
          (last.toRat - first.toRat)| ≤ count * (501 / 1000000)

/-- **Slides keep time.**  For cuts of at most a million seconds, in any order, and a fallback above
zero, there is one slide for each picture, in order, and all of them last for some time.  A slide
with two cuts and something left between them lasts as long as they say, in whole milliseconds, and
any other one as long as the fallback; and as long as no slide takes the fallback, their durations
add up to the time between the cuts, up to 0.501 milliseconds for each. -/
theorem slides_keep_time (fallback : Double) (pictures : List Path) (row : List Double)
    (pos : 0 < fallback) (usual : ∀ cut ∈ row, IsUsual cut) :
    KeepsTime fallback pictures row (slides fallback pictures row) where
  paths := map_path_slides fallback pictures row
  positive := by
    intro slide member
    obtain ⟨index, found⟩ := List.mem_iff_getElem?.1 member
    rw [duration_of_getElem? found]
    exact durationAt_pos _ pos
  timed := by
    intro index slide start stop found time
    have first := usual start (List.mem_of_getElem? time.begins)
    have second := usual stop (List.mem_of_getElem? time.ends)
    rw [duration_of_getElem? found, time.durationAt_eq fallback]
    exact ⟨rfl, timed_roundMillis first second time.left⟩
  untimed := by
    intro index slide found untimed
    exact (duration_of_getElem? found).trans (durationAt_eq_fallback untimed fallback)
  adds := by
    intro count within timed first begins
    have paths := congrArg List.length (map_path_slides fallback pictures row)
    rw [List.length_map] at paths
    exact exists_abs_sum_take_sub_le fallback pictures usual (paths ▸ within) timed begins

/-- Three pictures, of which the second one gets no time, as its cut goes back, and the last one
has no cut to last to. -/
theorem slides_keep_time_back :
    ((0 : Double) < 2 ∧ ∀ cut ∈ ([0, 2.5004, 2] : List Double), IsUsual cut) ∧
    KeepsTime 2 [⟨"p"⟩, ⟨"q"⟩, ⟨"r"⟩] [0, 2.5004, 2]
      (slides 2 [⟨"p"⟩, ⟨"q"⟩, ⟨"r"⟩] [0, 2.5004, 2]) ∧
    (slides 2 [⟨"p"⟩, ⟨"q"⟩, ⟨"r"⟩] [0, 2.5004, 2]).map Slide.duration = [2.5, 2, 2] := by
  have pos : (0 : Double) < 2 := by decide +kernel
  have usual : ∀ cut ∈ ([0, 2.5004, 2] : List Double), IsUsual cut := by decide +kernel
  exact ⟨⟨pos, usual⟩, slides_keep_time 2 _ _ pos usual, by decide +kernel⟩

end Rows

end Slidecast.Slideshow
