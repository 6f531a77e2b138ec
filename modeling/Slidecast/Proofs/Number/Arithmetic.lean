import Slidecast.Proofs.Number.Rounding

/-!
# Arithmetic on values

An operation on finite numbers rounds the exact result of the same operation on their values
(`exists_sub_eq`, `exists_mul_eq`, `exists_div_eq`).  Where the result is not negative, it has the
rounded value as long as that lies below the limit of the format, and is the infinity from there
on.  Quotients and rounded numbers keep the sign, so that what has a sign in front is never above
zero (`isNegative_eq_false_of_pos`).  Rounding to whole numbers is exact for 64 bits: a half is
added and the fraction dropped (`hasValue_round`).
-/

set_option autoImplicit false

namespace Slidecast.Number.Binary

variable {f : Format} {x y : Binary f} {q r : Rat}

/-- A finite number of a value. -/
def HasValue (x : Binary f) (q : Rat) : Prop := x.isFinite = true ∧ x.toRat = q

instance : Decidable (x.HasValue q) := inferInstanceAs (Decidable (_ ∧ _))

/-! ## The nearest number -/

/-- Rounding a value that is not negative, below the limit. -/
theorem hasValue_nearest (zeroSign : Bool) (nonneg : 0 ≤ q) (within : rounded f q < f.limit) :
    (nearest zeroSign q : Binary f).HasValue (rounded f q) := by
  unfold nearest
  split
  next zero =>
    rw [zero, rounded_zero]
    exact ⟨isFinite_zero zeroSign, toRat_zero zeroSign⟩
  next =>
    rw [if_neg (not_lt.2 nonneg)]
    have isFinite := (isFinite_ofMagnitude_iff false nonneg).2 within
    exact ⟨isFinite, by simpa using toRat_ofMagnitude nonneg isFinite⟩

/-- Rounding a value that is not negative, from the limit on. -/
theorem nearest_of_le (zeroSign : Bool) (nonneg : 0 ≤ q) (beyond : f.limit ≤ rounded f q) :
    (nearest zeroSign q : Binary f) = infinite false := by
  have nonzero : q ≠ 0 := by
    rintro rfl
    rw [rounded_zero] at beyond
    exact absurd (two_zpow_pos _) (not_lt.2 beyond)
  rw [nearest, if_neg nonzero, if_neg (not_lt.2 nonneg), ofMagnitude_of_le false nonneg beyond]

theorem isNaN_nearest (zeroSign : Bool) (q : Rat) :
    (nearest zeroSign q : Binary f).isNaN = false := by
  unfold nearest ofMagnitude
  dsimp only
  split_ifs <;> rfl

/-! ## Operations -/

theorem isFinite_neg : (-x).isFinite = x.isFinite := by
  show x.negate.isFinite = x.isFinite
  cases x <;> rfl

theorem toRat_neg : (-x).toRat = -x.toRat := by
  show x.negate.toRat = -x.toRat
  cases x with
  | nan => exact neg_zero.symm
  | infinite negative => exact neg_zero.symm
  | finite negative m e canonical =>
      show (finite (!negative) m e canonical).toRat = _
      rw [toRat_finite, toRat_finite]
      cases negative <;> simp

theorem exists_add_eq (hx : x.isFinite = true) (hy : y.isFinite = true) :
    ∃ zeroSign, x + y = nearest zeroSign (x.toRat + y.toRat) := by
  show ∃ zeroSign, add x y = _
  cases x with
  | nan => cases hx
  | infinite negative => cases hx
  | finite a m e canonical =>
      cases y with
      | nan => cases hy
      | infinite negative => cases hy
      | finite b n k canonical' => exact ⟨_, rfl⟩

/-- A difference is the rounded difference of the values. -/
theorem exists_sub_eq (hx : x.isFinite = true) (hy : y.isFinite = true) :
    ∃ zeroSign, x - y = nearest zeroSign (x.toRat - y.toRat) := by
  obtain ⟨zeroSign, same⟩ := exists_add_eq hx (isFinite_neg.trans hy)
  rw [toRat_neg, ← sub_eq_add_neg] at same
  exact ⟨zeroSign, same⟩

/-- A product is the rounded product of the values. -/
theorem exists_mul_eq (hx : x.isFinite = true) (hy : y.isFinite = true) :
    ∃ zeroSign, x * y = nearest zeroSign (x.toRat * y.toRat) := by
  show ∃ zeroSign, mul x y = _
  cases x with
  | nan => cases hx
  | infinite negative => cases hx
  | finite a m e canonical =>
      cases y with
      | nan => cases hy
      | infinite negative => cases hy
      | finite b n k canonical' => exact ⟨_, rfl⟩

/-- A quotient is the rounded quotient of the values, unless the divisor is zero. -/
theorem div_eq_nearest (hx : x.isFinite = true) (hy : y.isFinite = true) (nonzero : y.toRat ≠ 0) :
    x / y = nearest (x.isNegative != y.isNegative) (x.toRat / y.toRat) := by
  have notZero : ¬ y.isZero = true := by
    rw [isZero_iff_toRat_eq_zero hy]
    exact nonzero
  show div x y = _
  cases x with
  | nan => cases hx
  | infinite negative => cases hx
  | finite a m e canonical =>
      cases y with
      | nan => cases hy
      | infinite negative => cases hy
      | finite b n k canonical' => exact if_neg notZero

theorem exists_div_eq (hx : x.isFinite = true) (hy : y.isFinite = true) (nonzero : y.toRat ≠ 0) :
    ∃ zeroSign, x / y = nearest zeroSign (x.toRat / y.toRat) :=
  ⟨_, div_eq_nearest hx hy nonzero⟩

/-! ## Signs -/

theorem isNegative_ofMagnitude (negative : Bool) :
    (ofMagnitude negative q : Binary f).isNegative = negative := by
  unfold ofMagnitude
  dsimp only
  split_ifs <;> rfl

theorem isNegative_nearest (nonpos : q ≤ 0) : (nearest true q : Binary f).isNegative = true := by
  unfold nearest
  split
  next => rfl
  next nonzero =>
    rw [if_pos (lt_of_le_of_ne nonpos nonzero)]
    exact isNegative_ofMagnitude true

theorem isNegative_round (x : Binary f) : x.round.isNegative = x.isNegative := by
  cases x with
  | nan => rfl
  | infinite negative => rfl
  | finite negative m e canonical => exact isNegative_ofMagnitude negative

theorem toRat_nonneg_of_isNegative_eq_false (sign : x.isNegative = false) : 0 ≤ x.toRat := by
  cases x with
  | nan => exact le_rfl
  | infinite negative => exact le_rfl
  | finite negative m e canonical =>
      obtain rfl : negative = false := sign
      exact mul_nonneg (Nat.cast_nonneg m) (two_zpow_pos e).le

theorem toRat_nonpos_of_isNegative (sign : x.isNegative = true) : x.toRat ≤ 0 := by
  cases x with
  | nan => exact le_rfl
  | infinite negative => exact le_rfl
  | finite negative m e canonical =>
      obtain rfl : negative = true := sign
      rw [toRat_finite, if_pos rfl]
      exact neg_nonpos.2 (mul_nonneg (Nat.cast_nonneg m) (two_zpow_pos e).le)

/-- A number above zero has no sign in front. -/
theorem isNegative_eq_false_of_pos (pos : 0 < x) : x.isNegative = false := by
  by_contra sign
  rw [Bool.not_eq_false] at sign
  by_cases finite : x.isFinite = true
  · rw [lt_iff_toRat_lt isFinite_literal_zero finite, toRat_literal_zero] at pos
    exact absurd pos (not_lt.2 (toRat_nonpos_of_isNegative sign))
  · cases x with
    | nan => cases sign
    | infinite negative =>
        obtain rfl : negative = true := sign
        have zero : (0 : Binary f) = zero false := ofNat_zero
        rw [zero] at pos
        cases pos
    | finite => exact finite rfl

theorem toRat_pos_of_pos (hx : x.isFinite = true) (pos : 0 < x) : 0 < x.toRat := by
  rwa [lt_iff_toRat_lt isFinite_literal_zero hx, toRat_literal_zero] at pos

/-- The sign of a quotient is the sign of its numerator, if the divisor is a number above zero. -/
theorem isNegative_div (sign : x.isNegative = true) (hy : y.isFinite = true) (pos : 0 < y) :
    (x / y).isNegative = true := by
  have sign' := isNegative_eq_false_of_pos pos
  have valuePos := toRat_pos_of_pos hy pos
  have notZero : ¬ y.isZero = true := by
    rw [isZero_iff_toRat_eq_zero hy]
    exact valuePos.ne'
  have nonpos := toRat_nonpos_of_isNegative sign
  show (div x y).isNegative = true
  cases y with
  | nan => cases hy
  | infinite negative => cases hy
  | finite b n k canonical' =>
      obtain rfl : b = false := sign'
      cases x with
      | nan => cases sign
      | infinite negative =>
          obtain rfl : negative = true := sign
          rfl
      | finite a m e canonical =>
          obtain rfl : a = true := sign
          refine (congrArg isNegative (if_neg notZero)).trans ?_
          exact isNegative_nearest (div_nonpos_of_nonpos_of_nonneg nonpos valuePos.le)

/-- A difference of numbers that goes below zero has a sign in front. -/
theorem isNegative_sub (hx : x.isFinite = true) (hy : y.isFinite = true)
    (back : x.toRat < y.toRat) : (x - y).isNegative = true := by
  obtain ⟨zeroSign, difference⟩ := exists_sub_eq hx hy
  rw [difference, nearest, if_neg (sub_neg.2 back).ne, if_pos (sub_neg.2 back)]
  exact isNegative_ofMagnitude true

/-- The sign of a product is the sign of its first factor, if the other is a number above zero. -/
theorem isNegative_mul (sign : x.isNegative = true) (hy : y.isFinite = true) (pos : 0 < y) :
    (x * y).isNegative = true := by
  have sign' := isNegative_eq_false_of_pos pos
  have valuePos := toRat_pos_of_pos hy pos
  have notZero : ¬ y.isZero = true := by
    rw [isZero_iff_toRat_eq_zero hy]
    exact valuePos.ne'
  have nonpos := toRat_nonpos_of_isNegative sign
  show (mul x y).isNegative = true
  cases y with
  | nan => cases hy
  | infinite negative => cases hy
  | finite b n k canonical' =>
      obtain rfl : b = false := sign'
      cases x with
      | nan => cases sign
      | infinite negative =>
          obtain rfl : negative = true := sign
          exact congrArg isNegative (if_neg notZero)
      | finite a m e canonical =>
          obtain rfl : a = true := sign
          exact isNegative_nearest (mul_nonpos_of_nonpos_of_nonneg nonpos valuePos.le)

/-! ## Whole numbers -/

theorem hasValue_hundred : (100 : Double).HasValue 100 := by decide +kernel

theorem hasValue_thousand : (1000 : Double).HasValue 1000 := by decide +kernel

theorem magnitude_of_nonneg (hx : x.isFinite = true) (nonneg : 0 ≤ x.toRat) :
    x.magnitude = x.toRat := by
  cases x with
  | nan => cases hx
  | infinite negative => cases hx
  | finite negative m e canonical =>
      have distance : (0 : Rat) ≤ m * 2 ^ e := mul_nonneg (Nat.cast_nonneg m) (two_zpow_pos e).le
      rw [toRat_finite] at nonneg ⊢
      show (m : Rat) * 2 ^ e = _
      cases negative with
      | false => rfl
      | true =>
          simp only [if_true] at nonneg ⊢
          linarith

theorem exists_canonical (hx : x.isFinite = true) (nonneg : 0 ≤ x.toRat) :
    ∃ m e, f.Canonical m e ∧ x.toRat = m * 2 ^ e := by
  rw [← magnitude_of_nonneg hx nonneg]
  cases x with
  | nan => cases hx
  | infinite negative => cases hx
  | finite negative m e canonical => exact ⟨m, e, canonical, rfl⟩

/-- The values of a format are not rounded. -/
theorem rounded_toRat (hx : x.isFinite = true) (nonneg : 0 ≤ x.toRat) :
    rounded f x.toRat = x.toRat := by
  obtain ⟨m, e, canonical, value⟩ := exists_canonical hx nonneg
  rw [value]
  exact rounded_of_canonical canonical

/-- Rounding does not get past a value of the format. -/
theorem rounded_le_toRat (hx : x.isFinite = true) (nonneg : 0 ≤ q) (below : q ≤ x.toRat) :
    rounded f q ≤ x.toRat :=
  (rounded_mono nonneg below).trans_eq (rounded_toRat hx (nonneg.trans below))

theorem toRat_lt_limit (hx : x.isFinite = true) (nonneg : 0 ≤ x.toRat) : x.toRat < f.limit := by
  obtain ⟨m, e, canonical, value⟩ := exists_canonical hx nonneg
  rw [value]
  exact (Format.canonical_iff_lt_limit canonical.1 canonical.2.1 canonical.2.2.2).1 canonical

theorem two_zpow_lt_limit_double {e : Int} (small : e < 1024) :
    (2 : Rat) ^ e < Format.double.limit := zpow_lt_zpow_right₀ (by norm_num) small

/-- A whole number that needs no rounding is the value of the number it becomes. -/
theorem hasValue_ofMagnitude_natCast {n : Nat} (negative : Bool)
    (exact_ : rounded Format.double n = n) (within : (n : Rat) < Format.double.limit) :
    (ofMagnitude negative n : Double).HasValue (if negative then -n else n) := by
  have isFinite : (ofMagnitude negative n : Double).isFinite = true :=
    (isFinite_ofMagnitude_iff negative (Nat.cast_nonneg n)).2 (exact_.symm ▸ within)
  exact ⟨isFinite, by rw [toRat_ofMagnitude (Nat.cast_nonneg n) isFinite, exact_]⟩

/-- A finite number that is not negative is whole, or so small that 52 bits can count it. -/
theorem whole_or_lt {x : Double} (hx : x.isFinite = true) (nonneg : 0 ≤ x.toRat) :
    (∃ n : Nat, x.toRat = n) ∨ x.toRat < 2 ^ 52 := by
  obtain ⟨m, e, ⟨fits, _, _, _⟩, value⟩ := exists_canonical hx nonneg
  rw [value]
  rcases le_or_gt 0 e with whole | fraction
  · obtain ⟨k, rfl⟩ := Int.eq_ofNat_of_zero_le whole
    exact .inl ⟨m * 2 ^ k, by push_cast; rw [zpow_natCast]⟩
  · refine .inr ?_
    calc (m : Rat) * 2 ^ e < twoTo 53 * 2 ^ e :=
          mul_lt_mul_of_pos_right (by exact_mod_cast fits) (two_zpow_pos e)
      _ = 2 ^ ((53 : Nat) + e) := by rw [Format.twoTo_eq_zpow, ← zpow_add₀ (by norm_num)]
      _ ≤ 2 ^ (52 : Int) := zpow_le_zpow_right₀ (by norm_num) (by omega)
      _ = 2 ^ 52 := by norm_num

/-- A half added and the fraction dropped gives a number of 64 bits that is not rounded again. -/
theorem rounded_floor {x : Double} {n : Nat} (hx : x.isFinite = true) (nonneg : 0 ≤ x.toRat)
    (floor : ⌊x.toRat + 1 / 2⌋ = n) :
    rounded Format.double n = n ∧ (n : Rat) < Format.double.limit := by
  rcases whole_or_lt hx nonneg with ⟨m, whole⟩ | small
  · -- without binary places, nothing is dropped
    have drops : ⌊((m : Int) : Rat) + 1 / 2⌋ = m := by
      rw [Int.floor_intCast_add]
      norm_num
    rw [whole, ← Int.cast_natCast, drops] at floor
    obtain rfl : m = n := by exact_mod_cast floor
    rw [← whole]
    exact ⟨rounded_toRat hx nonneg, toRat_lt_limit hx nonneg⟩
  · -- with binary places, the number is so small that 53 bits can count it
    have below : (n : Rat) ≤ x.toRat + 1 / 2 := by
      exact_mod_cast floor ▸ Int.floor_le (x.toRat + 1 / 2)
    have room : (2 : Rat) ^ 52 + 1 / 2 < 2 ^ 53 := by norm_num
    have few : (n : Rat) < 2 ^ 53 := by linarith
    refine ⟨rounded_natCast (by exact_mod_cast few) (by decide), few.trans ?_⟩
    exact_mod_cast two_zpow_lt_limit_double (e := 53) (by decide)

/-- **Rounding to whole numbers is exact**: a half is added, and the fraction is dropped. -/
theorem hasValue_round {x : Double} (hx : x.isFinite = true) (nonneg : 0 ≤ x.toRat) :
    x.round.HasValue ⌊x.toRat + 1 / 2⌋ := by
  have floorNonneg : 0 ≤ ⌊x.toRat + 1 / 2⌋ := Int.floor_nonneg.2 (by linarith)
  obtain ⟨n, floor⟩ := Int.eq_ofNat_of_zero_le floorNonneg
  obtain ⟨same, within⟩ := rounded_floor hx nonneg floor
  have distance := magnitude_of_nonneg hx nonneg
  rw [floor, Int.cast_natCast]
  cases x with
  | nan => cases hx
  | infinite negative => cases hx
  | finite negative m e canonical =>
      have made : (finite negative m e canonical).round = ofMagnitude negative n := by
        have magnitude : ((m : Rat) * 2 ^ e + 1 / 2).floor = n := by
          rw [← distance] at floor
          exact floor
        show ofMagnitude negative (((m : Rat) * 2 ^ e + 1 / 2).floor : Rat) = _
        rw [magnitude, Int.cast_natCast]
      rw [made]
      have rounds := hasValue_ofMagnitude_natCast negative same within
      cases negative with
      | false => exact rounds
      | true =>
          -- the negative zero is the only number here with the sign bit, and zero has no other half
          have zero : (m : Rat) * 2 ^ e = 0 := by
            have := mul_nonneg (Nat.cast_nonneg (α := Rat) m) (two_zpow_pos e).le
            rw [toRat_finite] at nonneg
            simp only [if_true] at nonneg
            linarith
          obtain rfl : n = 0 := by
            have dropped : ⌊(0 : Rat) + 1 / 2⌋ = 0 := by norm_num
            rw [← distance] at floor
            change ⌊(m : Rat) * 2 ^ e + 1 / 2⌋ = n at floor
            rw [zero, dropped] at floor
            exact_mod_cast floor.symm
          simpa using rounds

/-- The whole part of a number that is not negative. -/
theorem truncate_of_hasValue (limit : Nat) (value : x.HasValue q) (nonneg : 0 ≤ q) :
    x.truncate limit = min limit q.floor.toNat := by
  have distance := magnitude_of_nonneg value.1 (value.2.symm ▸ nonneg)
  rw [value.2] at distance
  cases x with
  | nan => cases value.1
  | infinite negative => cases value.1
  | finite negative m e canonical =>
      rw [truncate, distance]
      cases negative with
      | false => rfl
      | true =>
          have step := two_zpow_pos e
          have below : q = -((m : Rat) * 2 ^ e) := value.2.symm
          have above : q = (m : Rat) * 2 ^ e := distance.symm
          have zero : q = 0 := by linarith
          have floor : Rat.floor 0 = 0 := rfl
          simp [zero, floor]

/-- A number that is not negative is rounded to a whole number by adding a half and dropping the
fraction, as long as the limit is not reached. -/
theorem truncate_round {x : Double} (limit : Nat) (hx : x.isFinite = true) (nonneg : 0 ≤ x.toRat) :
    x.round.truncate limit = min limit ⌊x.toRat + 1 / 2⌋.toNat := by
  have whole : (0 : Rat) ≤ ⌊x.toRat + 1 / 2⌋ := by
    exact_mod_cast Int.floor_nonneg.2 (by linarith : 0 ≤ x.toRat + 1 / 2)
  rw [truncate_of_hasValue limit (hasValue_round hx nonneg) whole, Rat.floor_intCast]

end Slidecast.Number.Binary
