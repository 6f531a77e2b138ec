import Slidecast.Proofs.Number.Places
import Slidecast.Subtitle.Script

/-!
# Clock times

A reader of clock times takes them apart at the colons and the point and accepts them only in the
form in which they belong: hours without zeros in front, and two digits each of minutes and seconds
below sixty and of hundredths.  It reads every number of hundredths back from its clock time
(`clock?_clockText`), so no carry is ever lost.

The hundredths that belong to a time in seconds never go back when the time goes on
(`centisecondsAt_mono`), through all that is done to it: what lies before zero is cut off, the product
is rounded and may become an infinity, it is rounded again to a whole number, and that stops at the
largest one (`centisecondsAt_eq`).
-/

set_option autoImplicit false

namespace Slidecast.Subtitle

open Number

/-! ## Fields -/

theorem mem_twoDigits {n : Nat} {c : Char} (member : c ∈ (twoDigits n).toList) :
    c.isDigit = true := by
  unfold twoDigits at member
  split at member
  · rw [String.toList_append, List.mem_append] at member
    rcases member with zero | digit
    · obtain rfl : c = '0' := by simpa using zero
      rfl
    · exact isDigit_of_mem_toString digit
  · exact isDigit_of_mem_toString member

/-- The fields of a clock time, as they are written. -/
structure ClockFields where
  hours : List Char
  minutes : List Char
  seconds : List Char
  hundredths : List Char

namespace ClockFields

/-- The clock time that has the fields. -/
def text (f : ClockFields) : List Char :=
  f.hours ++ ':' :: (f.minutes ++ ':' :: (f.seconds ++ '.' :: f.hundredths))

/-- Nothing but digits stands in the fields. -/
structure Digital (f : ClockFields) : Prop where
  hours : ∀ c ∈ f.hours, c.isDigit = true
  minutes : ∀ c ∈ f.minutes, c.isDigit = true
  seconds : ∀ c ∈ f.seconds, c.isDigit = true
  hundredths : ∀ c ∈ f.hundredths, c.isDigit = true

variable {f : ClockFields}

theorem not_mem_of_all_isDigit {cs : List Char} {mark : Char} (all : ∀ c ∈ cs, c.isDigit = true)
    (other : mark.isDigit = false) : mark ∉ cs := by
  intro member
  have digit := all mark member
  rw [other] at digit
  cases digit

/-- The hours and the minutes end at colons. -/
theorem Digital.splitOn_colon (digital : f.Digital) :
    f.text.splitOn ':' = [f.hours, f.minutes, f.seconds ++ '.' :: f.hundredths] := by
  have rest : ':' ∉ f.seconds ++ '.' :: f.hundredths := by
    rw [List.mem_append, List.mem_cons, not_or, not_or]
    exact ⟨not_mem_of_all_isDigit digital.seconds rfl, by decide,
      not_mem_of_all_isDigit digital.hundredths rfl⟩
  rw [text, List.splitOn_append_cons_self, List.splitOn_append_cons_self,
    List.splitOn_eq_singleton (not_mem_of_all_isDigit digital.hours rfl),
    List.splitOn_eq_singleton (not_mem_of_all_isDigit digital.minutes rfl),
    List.splitOn_eq_singleton rest]
  rfl

/-- The seconds end at the point. -/
theorem Digital.splitOn_point (digital : f.Digital) :
    (f.seconds ++ '.' :: f.hundredths).splitOn '.' = [f.seconds, f.hundredths] := by
  rw [List.splitOn_append_cons_self,
    List.splitOn_eq_singleton (not_mem_of_all_isDigit digital.seconds rfl),
    List.splitOn_eq_singleton (not_mem_of_all_isDigit digital.hundredths rfl)]
  rfl

end ClockFields

/-- The fields of a number of hundredths. -/
def fieldsOf (n : Nat) : ClockFields where
  hours := (toString (n / 100 / 60 / 60)).toList
  minutes := (twoDigits (n / 100 / 60 % 60)).toList
  seconds := (twoDigits (n / 100 % 60)).toList
  hundredths := (twoDigits (n % 100)).toList

theorem toList_clockText (n : Nat) : (clockText n).toList = (fieldsOf n).text := by
  have colon : ":".toList = [':'] := rfl
  have dot : ".".toList = ['.'] := rfl
  simp only [clockText, fieldsOf, ClockFields.text, String.toList_append, colon, dot,
    List.append_assoc, List.cons_append, List.nil_append]

theorem digital_fieldsOf (n : Nat) : (fieldsOf n).Digital where
  hours _ := isDigit_of_mem_toString
  minutes _ := mem_twoDigits
  seconds _ := mem_twoDigits
  hundredths _ := mem_twoDigits

theorem mem_timeText {seconds : Double} {c : Char} (member : c ∈ (timeText seconds).toList) :
    c.isDigit = true ∨ c = ':' ∨ c = '.' := by
  rw [timeText, toList_clockText, ClockFields.text] at member
  have digital := digital_fieldsOf (centisecondsAt seconds)
  simp only [List.mem_append, List.mem_cons] at member
  rcases member with hours | rfl | minutes | rfl | seconds' | rfl | hundredths
  · exact .inl (digital.hours c hours)
  · exact .inr (.inl rfl)
  · exact .inl (digital.minutes c minutes)
  · exact .inr (.inl rfl)
  · exact .inl (digital.seconds c seconds')
  · exact .inr (.inr rfl)
  · exact .inl (digital.hundredths c hundredths)

/-- No time has a comma or a line break in it. -/
theorem not_mem_timeText {seconds : Double} {c : Char} (other : c = ',' ∨ c = '\n') :
    c ∉ (timeText seconds).toList := by
  intro member
  have kind := mem_timeText member
  rcases other with rfl | rfl
  · exact absurd kind (by decide)
  · exact absurd kind (by decide)

/-! ## Reading clock times -/

/-- The hours of a clock time: a number without zeros in front. -/
def hours? (cs : List Char) : Option Nat :=
  if (toString (ofDigits cs)).toList = cs then some (ofDigits cs) else none

/-- A number of exactly two digits. -/
def twoDigits? : List Char → Option Nat
  | [tens, ones] =>
      if tens.isDigit ∧ ones.isDigit then some (10 * digitValue tens + digitValue ones) else none
  | _ => none

/-- How many hundredths of a second a clock time stands for, if it has the form `H:MM:SS.cc`. -/
def clock? (cs : List Char) : Option Nat :=
  match cs.splitOn ':' with
  | [hours, minutes, rest] =>
      match rest.splitOn '.' with
      | [seconds, hundredths] => do
          let hours ← hours? hours
          let minutes ← twoDigits? minutes
          let seconds ← twoDigits? seconds
          let hundredths ← twoDigits? hundredths
          guard (minutes < 60 ∧ seconds < 60)
          some (((hours * 60 + minutes) * 60 + seconds) * 100 + hundredths)
      | _ => none
  | _ => none

theorem hours?_toString (n : Nat) : hours? (toString n).toList = some n := by
  have same := ofDigits_toString n
  rw [hours?, same, if_pos rfl]

theorem twoDigits?_twoDigits {n : Nat} (small : n < 100) :
    twoDigits? (twoDigits n).toList = some n := by
  have each : ∀ m < 100, twoDigits? (twoDigits m).toList = some m := by decide +kernel
  exact each n small

/-- **A clock time is read back** as the hundredths that it was written for. -/
theorem clock?_clockText (n : Nat) : clock? (clockText n).toList = some n := by
  have minutes : n / 100 / 60 % 60 < 60 := Nat.mod_lt _ (by decide)
  have seconds : n / 100 % 60 < 60 := Nat.mod_lt _ (by decide)
  have hundredths : n % 100 < 100 := Nat.mod_lt _ (by decide)
  have total : ((n / 100 / 60 / 60 * 60 + n / 100 / 60 % 60) * 60 + n / 100 % 60) * 100 +
      n % 100 = n := by omega
  have digital := digital_fieldsOf n
  simp only [clock?, toList_clockText, digital.splitOn_colon, digital.splitOn_point]
  simp only [fieldsOf, hours?_toString,
    twoDigits?_twoDigits (minutes.trans (by decide : 60 < 100)),
    twoDigits?_twoDigits (seconds.trans (by decide : 60 < 100)), twoDigits?_twoDigits hundredths,
    guard, minutes, seconds, and_self, if_true, Option.bind_eq_bind, Option.bind_some,
    Option.pure_def, total]

theorem clock?_timeText (seconds : Double) :
    clock? (timeText seconds).toList = some (centisecondsAt seconds) := by
  rw [timeText]
  exact clock?_clockText _

/-! ## The order of times -/

/-- The hundredths that belong to a finite time: the product is rounded, a half is added and the
fraction dropped, and there is a largest number. -/
theorem centisecondsAt_eq {x : Double} (hx : x.isFinite = true) :
    centisecondsAt x =
      min latestTime ⌊Binary.rounded Format.double (max x.toRat 0 * 100) + 1 / 2⌋.toNat := by
  have finite : (x.larger 0).isFinite = true :=
    Binary.isFinite_larger hx Binary.isFinite_literal_zero
  obtain ⟨zeroSign, product⟩ := Binary.exists_mul_eq finite Binary.hasValue_hundred.1
  rw [Binary.toRat_larger hx Binary.isFinite_literal_zero, Binary.toRat_literal_zero,
    Binary.hasValue_hundred.2] at product
  have nonneg : 0 ≤ max x.toRat 0 * 100 := mul_nonneg (le_max_right _ _) (by norm_num)
  rw [centisecondsAt, product]
  generalize max x.toRat 0 * 100 = q at *
  rcases lt_or_ge (Binary.rounded Format.double q) Format.double.limit with within | beyond
  · obtain ⟨isFinite, value⟩ := Binary.hasValue_nearest zeroSign nonneg within
    have roundedNonneg := Binary.rounded_nonneg (f := Format.double) nonneg
    rw [Binary.truncate_round latestTime isFinite (value.symm ▸ roundedNonneg), value]
  · -- an infinity stands for the largest number, as every number of that size does
    rw [Binary.nearest_of_le zeroSign nonneg beyond]
    have large : ((latestTime : Int) : Rat) ≤ Binary.rounded Format.double q + 1 / 2 := by
      have bits : ((latestTime : Int) : Rat) ≤ 2 ^ (64 : Int) := by
        norm_num [latestTime, largest, twoTo]
      have limit := Binary.two_zpow_lt_limit_double (by decide : (64 : Int) < 1024)
      linarith
    have most : (latestTime : Int) ≤ ⌊Binary.rounded Format.double q + 1 / 2⌋ := Int.le_floor.2 large
    exact (min_eq_left (Int.le_toNat (by omega) |>.2 most)).symm

/-- **The hundredths never go back** when the time goes on. -/
theorem centisecondsAt_mono {x y : Double} (hx : x.isFinite = true) (hy : y.isFinite = true)
    (forth : x.toRat ≤ y.toRat) : centisecondsAt x ≤ centisecondsAt y := by
  have scaled : max x.toRat 0 * 100 ≤ max y.toRat 0 * 100 :=
    mul_le_mul_of_nonneg_right (max_le_max_right 0 forth) (by norm_num)
  have nonneg : 0 ≤ max x.toRat 0 * 100 := mul_nonneg (le_max_right _ _) (by norm_num)
  have rounded := Binary.rounded_mono (f := Format.double) nonneg scaled
  have floors : ⌊Binary.rounded Format.double (max x.toRat 0 * 100) + 1 / 2⌋ ≤
      ⌊Binary.rounded Format.double (max y.toRat 0 * 100) + 1 / 2⌋ :=
    Int.floor_le_floor (by linarith)
  rw [centisecondsAt_eq hx, centisecondsAt_eq hy]
  exact min_le_min_left latestTime (Int.toNat_le_toNat floors)

end Slidecast.Subtitle
