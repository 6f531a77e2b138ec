import Slidecast.Proofs.Json.Reading
import Slidecast.Proofs.Number.Shortest

/-!
# Numbers that are read back

A number with few digits is read back from its own text (`readsBack_of_hasFewDigits`).  Its digits fit
into a significand, the significand and the power of ten that it is divided by are exact, and so the
quotient is rounded once, to the number that the digits were written for.
-/

set_option autoImplicit false

namespace Slidecast.Json

open Slidecast.Number Slidecast.Number.Binary Document

/-! ## Digits -/

theorem ofDigits_cons (c : Char) (digits : List Char) :
    ofDigits (c :: digits) = digitValue c * 10 ^ digits.length + ofDigits digits := by
  have single : ofDigits [c] = digitValue c := by simp [ofDigits]
  rw [← List.singleton_append, ofDigits_append, single]

/-- Digits that fit into a significand are all taken. -/
theorem accumulate_of_le (digits : List Char) (significand : Nat)
    (fits : significand * 10 ^ digits.length + ofDigits digits ≤ significandLimit) :
    accumulate significand digits =
      (significand * 10 ^ digits.length + ofDigits digits, 0) := by
  induction digits generalizing significand with
  | nil => simp [accumulate, ofDigits]
  | cons c digits ih =>
      have same : significand * 10 ^ (c :: digits).length + ofDigits (c :: digits) =
          (10 * significand + digitValue c) * 10 ^ digits.length + ofDigits digits := by
        rw [ofDigits_cons, List.length_cons, pow_succ]
        ring
      rw [same] at fits ⊢
      have next : 10 * significand + digitValue c ≤ significandLimit := by
        have := Nat.le_mul_of_pos_right (10 * significand + digitValue c)
          (Nat.pow_pos (n := digits.length) (by decide : 0 < 10))
        omega
      rw [accumulate]
      simp only [if_pos next]
      exact ih _ fits

/-! ## The quotient -/

/-- A value that is not negative is rounded as a distance from zero. -/
theorem nearest_of_nonneg {f : Format} {q : Rat} (nonneg : 0 ≤ q) :
    (nearest false q : Binary f) = ofMagnitude false q := by
  rcases nonneg.eq_or_lt with rfl | pos
  · rw [nearest, if_pos rfl, ofMagnitude_of_rounded_eq_zero false le_rfl rounded_zero]
  · rw [nearest, if_neg pos.ne', if_neg (not_lt.2 nonneg)]

theorem neg_ofMagnitude {f : Format} (q : Rat) :
    -(ofMagnitude false q : Binary f) = ofMagnitude true q := by
  unfold ofMagnitude
  dsimp only
  split_ifs <;> rfl

/-- The powers of ten up to the twenty-second are exact. -/
theorem hasValue_powerOfTen {n : Nat} (small : n < 23) :
    (powerOfTen n).HasValue ((10 : Rat) ^ n) := by
  have all : ∀ n < 23, (powerOfTen n).HasValue ((10 : Rat) ^ n) := by decide +kernel
  exact all n small

theorem hasValue_ofNat_double {n : Nat} (few : n < 2 ^ 53) :
    (Binary.ofNat n : Double).HasValue n := by
  have exact_ := rounded_natCast (f := Format.double) few (by decide)
  have within : (n : Rat) < Format.double.limit :=
    lt_of_lt_of_le (by exact_mod_cast few) (two_zpow_lt_limit_double (e := 53) (by decide)).le
  exact hasValue_ofMagnitude_natCast false exact_ within

/-- An exact significand over an exact power of ten is rounded once. -/
theorem scaled_quotient (negative : Bool) {significand places : Nat}
    (few : significand < 2 ^ 53) (pos : 0 < places) (small : places < 23) :
    scaled negative significand (-(places : Int)) =
      .ok (ofMagnitude negative (significand / 10 ^ places)) := by
  obtain ⟨finite, value⟩ := hasValue_ofNat_double few
  obtain ⟨finite', value'⟩ := hasValue_powerOfTen small
  have nonneg : (0 : Rat) ≤ significand / 10 ^ places := by positivity
  have divisor : (powerOfTen places).toRat ≠ 0 := by
    rw [value']
    positivity
  have sign : (Binary.ofNat significand : Double).isNegative = false := isNegative_ofMagnitude false
  have sign' : (powerOfTen places).isNegative = false := by
    rw [powerOfTen, ofRat, nearest_of_nonneg (by positivity)]
    exact isNegative_ofMagnitude false
  have quotient : (Binary.ofNat significand : Double) / powerOfTen places =
      ofMagnitude false (significand / 10 ^ places) := by
    rw [div_eq_nearest finite finite' divisor, value, value', sign, sign']
    exact nearest_of_nonneg nonneg
  have narrow : (-(places : Int)).natAbs ≤ widestScale := by
    rw [Int.natAbs_neg, Int.natAbs_natCast]
    exact small.le.trans (by decide)
  have down : ¬ (0 : Int) ≤ -(places : Int) := by omega
  rw [scaled, scale, if_pos narrow, if_neg down, Int.natAbs_neg, Int.natAbs_natCast, quotient]
  cases negative with
  | false => rfl
  | true => exact congrArg Except.ok (neg_ofMagnitude _)

/-! ## Texts -/

/-- **Few digits with a point among them** are read as the number nearest to their value. -/
theorem numeral_point (negative : Bool) {front back : List Char}
    (all : front.all Char.isDigit = true) (all' : back.all Char.isDigit = true)
    (filled : front ≠ []) (noZero : ∀ cs, front = '0' :: cs → cs = []) (filled' : back ≠ [])
    (few : ofDigits (front ++ back) < 2 ^ 53) (small : back.length < 23) :
    numeral negative (front ++ '.' :: back) =
      .ok (.real (ofMagnitude negative (ofDigits (front ++ back) / 10 ^ back.length)), []) := by
  have limit : 2 ^ 53 ≤ significandLimit := by decide
  have joined := ofDigits_append front back
  have fits : ofDigits front ≤ significandLimit := by
    have := Nat.le_mul_of_pos_right (ofDigits front)
      (Nat.pow_pos (n := back.length) (by decide : 0 < 10))
    omega
  have taken := accumulate_of_le front 0 (by omega)
  have taken' := accumulate_of_le back (ofDigits front) (by omega)
  rw [Nat.zero_mul, Nat.zero_add] at taken
  rw [← joined] at taken'
  obtain ⟨takes, drops⟩ := span_digits ('.' :: back) all (by simp)
  obtain ⟨takes', drops'⟩ := span_digits [] all' (by simp)
  rw [List.append_nil] at takes' drops'
  have empty : back.isEmpty = false := by simpa using filled'
  have fraction : fractionPart negative (ofDigits front) 0 ('.' :: back) =
      .ok (ofMagnitude negative (ofDigits (front ++ back) / 10 ^ back.length), []) := by
    rw [fractionPart_point, takes', drops', taken', empty, if_neg Bool.false_ne_true,
      exponentOrEnd_of_stops stops_nil]
    have places : (0 : Int) - ((back.length : Int) - (0 : Nat)) = -(back.length : Int) := by omega
    rw [places, scaled_quotient negative few (List.length_pos_of_ne_nil filled') small]
    rfl
  obtain ⟨c, cs, rfl⟩ := List.exists_cons_of_ne_nil filled
  have digit : c.isDigit = true := List.all_eq_true.1 all c List.mem_cons_self
  have lone : ¬ (c = '0' ∧ startsWithDigit (cs ++ '.' :: back) = true) := by
    rintro ⟨rfl, starts⟩
    rw [noZero cs rfl] at starts
    cases starts
  rw [List.cons_append, numeral, ← List.cons_append, takes, drops]
  dsimp only
  rw [digit, taken, if_neg (by decide), if_neg lone, if_neg (by simp [continues])]
  exact bind_eq_ok.2 ⟨_, fraction, rfl⟩

/-- A decimal with few digits is written with a point among few digits. -/
theorem exists_point_text {d : Decimal} (few : d.digits < 10 ^ 15) (low : -5 ≤ d.leading)
    (high : d.leading ≤ 13) (plain : d.digits = 0 → d.exponent = 0) :
    ∃ front back, (d.positional ".0").toList = front ++ '.' :: back ∧
      front.all Char.isDigit = true ∧ back.all Char.isDigit = true ∧
      (front ≠ [] ∧ ∀ cs, front = '0' :: cs → cs = []) ∧ back ≠ [] ∧
      ofDigits (front ++ back) < 2 ^ 53 ∧ back.length < 23 ∧
      (ofDigits (front ++ back) : Rat) / 10 ^ back.length = d.toRat := by
  have enough : 10 ^ 15 < 2 ^ 53 := by decide
  rcases lt_or_ge d.exponent 0 with fraction | whole
  · obtain ⟨front, back, written, all, all', noZero, exponent, value⟩ :=
      Decimal.exists_point fraction ".0"
    have short : d.text.length ≤ 15 := (length_toString_le_iff (by decide)).2 few
    have leading : d.leading = d.exponent + d.text.length - 1 := rfl
    refine ⟨front, back, written, all, all', noZero, ?_, by omega, by omega, ?_⟩
    · rintro rfl
      simp at exponent
      omega
    · rw [value, Decimal.toRat, exponent, zpow_neg, zpow_natCast, div_eq_mul_inv]
  · obtain ⟨zeros, exponent⟩ := Int.eq_ofNat_of_zero_le whole
    have value : d.toRat = (d.digits * 10 ^ zeros : Nat) := by
      rw [Decimal.toRat, exponent]
      push_cast
      rfl
    have small : d.digits * 10 ^ zeros < 10 ^ 14 := by
      have most := d.toRat_lt_ten_zpow_leading
      have bound : (10 : Rat) ^ (d.leading + 1) ≤ 10 ^ (14 : Int) :=
        zpow_le_zpow_right₀ (by norm_num) (by omega)
      rw [value] at most
      exact_mod_cast most.trans_le bound
    have zero : ofDigits (List.replicate zeros '0') = 0 := by
      simpa [ofDigits] using ofDigits_zeros_append zeros []
    have sum : ofDigits ((toString d.digits).toList ++ List.replicate zeros '0' ++ ['0']) =
        d.digits * 10 ^ zeros * 10 := by
      rw [ofDigits_append, ofDigits_append, ofDigits_toString, zero, List.length_replicate]
      rfl
    refine ⟨(toString d.digits).toList ++ List.replicate zeros '0', ['0'], ?_, ?_, rfl, ⟨?_, ?_⟩,
      List.cons_ne_nil _ _, by omega, by decide, ?_⟩
    · simp [Decimal.positional, Decimal.text, exponent]
    · rw [List.all_append, all_isDigit_toString]
      simp
    · simp
    · -- only zero begins with a zero, and it has no zeros behind it
      intro cs same
      obtain ⟨c, tail, split, _⟩ := exists_toString_eq_cons d.digits
      rw [split, List.cons_append] at same
      obtain ⟨rfl, rfl⟩ := List.cons.inj same
      have lone := toString_of_zero_first split
      have zero : d.digits = 0 := by
        rw [← ofDigits_toString d.digits, split, lone]
        rfl
      have noZeros : zeros = 0 := by
        have := plain zero
        omega
      rw [lone, noZeros]
      rfl
    · rw [sum, value]
      push_cast
      simp

/-- A number without a sign in front begins with a digit. -/
theorem number_of_startsWithDigit {digits : List Char} (first : startsWithDigit digits = true) :
    number digits = numeral false digits := by
  cases digits with
  | nil => cases first
  | cons c cs =>
      have visible : isSpace c = false := by
        by_contra space
        simp only [isSpace, Bool.not_eq_false, Bool.or_eq_true, decide_eq_true_eq] at space
        rcases space with ((rfl | rfl) | rfl) | rfl <;> cases first
      rw [number, skipSpace_cons visible]
      split
      next minus => cases minus; cases first
      next => rw [if_pos first]

/-- A number whose digits are read as this number is read back. -/
theorem readsBack_of_numeral {x : Double} {negative : Bool} {digits : List Char}
    (written : numberText doubleNotation x = if negative then '-' :: digits else digits)
    (first : startsWithDigit digits = true)
    (read : numeral negative digits = .ok (.real x, [])) : ReadsBack x := by
  have number : number (if negative then '-' :: digits else digits) = .ok (.real x, []) := by
    cases negative with
    | true =>
        rw [if_pos rfl, number, skipSpace_cons rfl]
        exact read
    | false =>
        rw [if_neg Bool.false_ne_true, number_of_startsWithDigit first]
        exact read
  refine decode_eq_ok_iff.2 ⟨[], isBlank_nil, ?_⟩
  rw [compact, String.toList_ofList, compactChars, written]
  exact bind_eq_ok.2 ⟨_, number, rfl⟩

/-- **A whole number** is read from its digits, if they fit into a significand. -/
theorem numeral_toString {n : Nat} (fits : n ≤ significandLimit) :
    numeral false (toString n).toList = .ok (.natural n, []) := by
  have value := ofDigits_toString n
  have taken := accumulate_of_le (toString n).toList 0 (by
    rw [Nat.zero_mul, Nat.zero_add, value]
    exact fits)
  rw [Nat.zero_mul, Nat.zero_add, value] at taken
  obtain ⟨takes, drops⟩ := span_digits [] (all_isDigit_toString n) (by simp)
  rw [List.append_nil] at takes drops
  obtain ⟨c, cs, split, digit⟩ := exists_toString_eq_cons n
  rw [split] at taken takes drops ⊢
  have lone : ¬ (c = '0' ∧ startsWithDigit cs = true) := by
    rintro ⟨rfl, starts⟩
    rw [toString_of_zero_first split] at starts
    cases starts
  rw [numeral, takes, drops]
  dsimp only
  rw [digit, taken, if_neg (by decide), if_neg lone]
  rfl

theorem reads_natural {n limit : Nat} (small : n ≤ limit) (fits : n ≤ significandLimit) :
    Reads (natural limit) (toString n).toList n := by
  obtain ⟨c, cs, split, digit⟩ := exists_toString_eq_cons n
  have read : number (toString n).toList = .ok (.natural n, []) := by
    rw [number_of_startsWithDigit (by rw [split]; exact digit)]
    exact numeral_toString fits
  exact (reads_number isBlank_nil read).refine (if_pos small)

/-- A number is written with at most fifteen digits, the first of them at most five places behind
the point and at most fourteen in front of it. -/
structure HasFewDigits (x : Double) : Prop where
  few : (x.shortest .toEven).digits < 10 ^ 15
  low : -5 ≤ (x.shortest .toEven).leading
  high : (x.shortest .toEven).leading ≤ 13

/-- Only zero has no digits, and it has no exponent either. -/
theorem exponent_shortest_of_zero {x : Double} (zero : (x.shortest .toEven).digits = 0) :
    (x.shortest .toEven).exponent = 0 := by
  cases x with
  | nan => rfl
  | infinite negative => rfl
  | finite negative m e canonical =>
      by_cases isZero : m = 0
      · rw [shortest, if_pos isZero]
      · have pos := pos_of_roundsBack isZero
          (roundsBack_shortest Format.usual_double .toEven negative canonical isZero)
        rw [Decimal.toRat, zero, Nat.cast_zero, zero_mul] at pos
        exact absurd pos (lt_irrefl 0)

theorem numberText_of_positional {x : Double} (finite : x.isFinite = true)
    (inPlace : doubleNotation.positional (x.shortest .toEven).leading = true) :
    numberText doubleNotation x =
      if x.isNegative then '-' :: ((x.shortest .toEven).positional ".0").toList
      else ((x.shortest .toEven).positional ".0").toList := by
  cases x with
  | nan => cases finite
  | infinite negative => cases finite
  | finite negative m e canonical =>
      have tie : doubleNotation.tie = Tie.toEven := rfl
      rw [numberText, if_pos finite, write, tie, if_pos inPlace]
      cases negative with
      | true => exact String.toList_append
      | false => rfl

/-- **A number with few digits is read back.** -/
theorem readsBack_of_hasFewDigits {x : Double} (finite : x.isFinite = true)
    (digits : HasFewDigits x) : ReadsBack x := by
  obtain ⟨few, low, high⟩ := digits
  have inPlace : doubleNotation.positional (x.shortest .toEven).leading = true := by
    simp [doubleNotation, low, high.trans (by decide : (13 : Int) ≤ 15)]
  have text := numberText_of_positional finite inPlace
  obtain ⟨front, rear, written, all, all', ⟨filled, noZero⟩, filled', small, places, value⟩ :=
    exists_point_text few low high exponent_shortest_of_zero
  have read := numeral_point x.isNegative all all' filled noZero filled' small places
  have same : ofMagnitude x.isNegative (x.shortest .toEven).toRat = x := by
    cases x with
    | nan => cases finite
    | infinite negative => cases finite
    | finite negative m e canonical =>
        exact ofMagnitude_shortest Format.usual_double .toEven negative canonical
  rw [value, same] at read
  rw [written] at text
  obtain ⟨c, cs, rfl⟩ := List.exists_cons_of_ne_nil filled
  have digit : c.isDigit = true := List.all_eq_true.1 all c List.mem_cons_self
  exact readsBack_of_numeral text digit read

end Slidecast.Json
