import Slidecast.Proofs.Number.Shortest
import Slidecast.Proofs.Subtitle.Clock

/-!
# Hundredths of all numbers

Every number is written as a clock time, also one below zero, an infinity, and "not a number": they
stand for no hundredths or for as many as there can be (`centisecondsAt_eq_hundredthsOf`).

A row of characters stands for a number of hundredths if its fields are in their form: hours without
a zero in front, minutes and seconds of two digits below sixty, and two digits of hundredths.  A row
has no more than one way to be taken apart into fields (`Digital.eq_of_text_eq`), so it stands for one
number at most, and a clock time stands for the number that it was written for
(`standsFor_clockText_iff`).
-/

set_option autoImplicit false

namespace Slidecast.Subtitle

open Number

/-! ## Hundredths -/

/-- How many hundredths a number of seconds is: a hundred times the part above zero, as precisely as
the format has it, rounded to a whole number with halves going up, up to the latest time. -/
def hundredthsOf : Double → Nat
  | .nan => 0
  | .infinite negative => if negative then 0 else latestTime
  | .finite negative m e canonical =>
      let x : Double := .finite negative m e canonical
      min latestTime ⌊Binary.rounded Format.double (max x.toRat 0 * 100) + 1 / 2⌋.toNat

/-- **The hundredths of a time**, for every number. -/
theorem centisecondsAt_eq_hundredthsOf (x : Double) : centisecondsAt x = hundredthsOf x := by
  cases x with
  | nan => decide +kernel
  | infinite negative => cases negative <;> decide +kernel
  | finite negative m e canonical => exact centisecondsAt_eq rfl

theorem hundredthsOf_le_latestTime (x : Double) : hundredthsOf x ≤ latestTime := by
  cases x with
  | nan => exact Nat.zero_le _
  | infinite negative => cases negative <;> simp [hundredthsOf]
  | finite negative m e canonical => exact min_le_left _ _

/-- **The hundredths never go back** when the time goes on, from one infinity to the other. -/
theorem hundredthsOf_mono {x y : Double} (forth : x ≤ y) : hundredthsOf x ≤ hundredthsOf y := by
  rcases Binary.le_cases forth with rfl | rfl | ⟨hx, hy, values⟩
  · exact Nat.zero_le _
  · exact hundredthsOf_le_latestTime x
  · rw [← centisecondsAt_eq_hundredthsOf, ← centisecondsAt_eq_hundredthsOf]
    exact centisecondsAt_mono hx hy values

/-! ## Clock times in their form -/

/-- A row of digits that writes a number without a zero in front of it. -/
structure IsUnpadded (cs : List Char) : Prop where
  filled : cs ≠ []
  digits : ∀ c ∈ cs, c.isDigit = true
  first : cs.head? = some '0' → cs = ['0']

/-- A row of two digits. -/
structure IsPair (cs : List Char) : Prop where
  two : cs.length = 2
  digits : ∀ c ∈ cs, c.isDigit = true

namespace ClockFields

/-- The fields are in their form. -/
structure Proper (f : ClockFields) : Prop where
  hours : IsUnpadded f.hours
  minutes : IsPair f.minutes
  minutes_lt : ofDigits f.minutes < 60
  seconds : IsPair f.seconds
  seconds_lt : ofDigits f.seconds < 60
  hundredths : IsPair f.hundredths

/-- The hundredths that the fields stand for together. -/
def total (f : ClockFields) : Nat :=
  ((ofDigits f.hours * 60 + ofDigits f.minutes) * 60 + ofDigits f.seconds) * 100 +
    ofDigits f.hundredths

variable {f f' : ClockFields}

theorem Proper.digital (proper : f.Proper) : f.Digital :=
  ⟨proper.hours.digits, proper.minutes.digits, proper.seconds.digits, proper.hundredths.digits⟩

/-- A row of characters has one way to be taken apart into fields. -/
theorem Digital.eq_of_text_eq (digital : f.Digital) (digital' : f'.Digital)
    (same : f.text = f'.text) : f = f' := by
  have fields := digital.splitOn_colon
  rw [same, digital'.splitOn_colon] at fields
  obtain ⟨hours, fields⟩ := List.cons.inj fields
  obtain ⟨minutes, fields⟩ := List.cons.inj fields
  have rest := digital.splitOn_point
  rw [← (List.cons.inj fields).1, digital'.splitOn_point] at rest
  obtain ⟨seconds, hundredths⟩ := List.cons.inj rest
  cases f
  cases f'
  simp_all

end ClockFields

theorem isPair_twoDigits {n : Nat} (small : n < 100) : IsPair (twoDigits n).toList := by
  have each : ∀ m < 100, (twoDigits m).toList.length = 2 := by decide +kernel
  exact ⟨each n small, fun _ => mem_twoDigits⟩

theorem ofDigits_twoDigits {n : Nat} (small : n < 100) : ofDigits (twoDigits n).toList = n := by
  have each : ∀ m < 100, ofDigits (twoDigits m).toList = m := by decide +kernel
  exact each n small

theorem isUnpadded_toString (n : Nat) : IsUnpadded (toString n).toList where
  filled := by simp
  digits _ := isDigit_of_mem_toString
  first := by
    intro zero
    obtain ⟨cs, split⟩ := List.head?_eq_some_iff.1 zero
    rw [split, Binary.toString_of_zero_first split]

theorem proper_fieldsOf (n : Nat) : (fieldsOf n).Proper := by
  have minutes : n / 100 / 60 % 60 < 60 := Nat.mod_lt _ (by decide)
  have seconds : n / 100 % 60 < 60 := Nat.mod_lt _ (by decide)
  have hundredths : n % 100 < 100 := Nat.mod_lt _ (by decide)
  constructor
  case hours => exact isUnpadded_toString _
  case minutes => exact isPair_twoDigits (by omega)
  case minutes_lt => exact (ofDigits_twoDigits (by omega)).trans_lt minutes
  case seconds => exact isPair_twoDigits (by omega)
  case seconds_lt => exact (ofDigits_twoDigits (by omega)).trans_lt seconds
  case hundredths => exact isPair_twoDigits hundredths

/-- No carry is lost. -/
theorem total_fieldsOf (n : Nat) : (fieldsOf n).total = n := by
  simp only [ClockFields.total, fieldsOf]
  rw [ofDigits_toString, ofDigits_twoDigits (by omega), ofDigits_twoDigits (by omega),
    ofDigits_twoDigits (by omega)]
  omega

/-- A row of characters is a clock time in its form that stands for a number of hundredths. -/
def StandsFor (cs : List Char) (n : Nat) : Prop :=
  ∃ f : ClockFields, f.Proper ∧ cs = f.text ∧ f.total = n

/-- **A clock time stands for the hundredths that it was written for**, and for no others. -/
theorem standsFor_clockText_iff {n k : Nat} : StandsFor (clockText n).toList k ↔ k = n := by
  constructor
  · rintro ⟨f, proper, same, rfl⟩
    rw [toList_clockText] at same
    rw [← (digital_fieldsOf n).eq_of_text_eq proper.digital same, total_fieldsOf]
  · rintro rfl
    exact ⟨fieldsOf k, proper_fieldsOf k, toList_clockText k, total_fieldsOf k⟩

/-- **Every number is written as a clock time** in its form that stands for its hundredths, and for no
other number of them; and a later time stands for no fewer. -/
theorem timeText_keeps_time (x : Double) :
    (∀ n, StandsFor (timeText x).toList n ↔ n = hundredthsOf x) ∧
      ∀ y : Double, x ≤ y → ∀ n n', StandsFor (timeText x).toList n →
        StandsFor (timeText y).toList n' → n ≤ n' := by
  have stands (z : Double) (n : Nat) : StandsFor (timeText z).toList n ↔ n = hundredthsOf z := by
    rw [timeText, standsFor_clockText_iff, centisecondsAt_eq_hundredthsOf]
  refine ⟨stands x, fun y forth n n' earlier later => ?_⟩
  rw [(stands x n).1 earlier, (stands y n').1 later]
  exact hundredthsOf_mono forth

/-- A carry goes through the seconds into the minutes, and an infinity is the latest time. -/
theorem timeText_keeps_time_carry :
    timeText 59.999 = "0:01:00.00" ∧ (59.999 : Double) ≤ .infinite false ∧
      StandsFor (timeText 59.999).toList 6000 ∧
      StandsFor (timeText (.infinite false)).toList latestTime ∧ 6000 ≤ latestTime := by
  have forth : (59.999 : Double) ≤ .infinite false := by decide +kernel
  have earlier : StandsFor (timeText 59.999).toList 6000 :=
    ((timeText_keeps_time 59.999).1 6000).2 (by decide +kernel)
  have later : StandsFor (timeText (.infinite false)).toList latestTime :=
    ((timeText_keeps_time (.infinite false)).1 latestTime).2 rfl
  exact ⟨by decide +kernel, forth, earlier, later,
    (timeText_keeps_time 59.999).2 (.infinite false) forth 6000 latestTime earlier later⟩

end Slidecast.Subtitle
