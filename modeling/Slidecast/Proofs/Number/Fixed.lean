import Slidecast.Proofs.Number.Shortest

/-!
# Fixed places with a sign

The text of a finite number with fixed places is a sign and the text of its distance from zero, in
units of the last place (`exists_readsAs_fixed`).  As rounding to whole numbers does not depend on the
sign (`nearestEven_neg`), the text has the value of the number, rounded to so many places
(`decimalValue?_fixed`).

A number of 64 bits that is the nearest one to some thousandths is read back from its text with three
places (`read?_fixed_three`).  Where the numbers are finer than thousandths, the text has just these
thousandths; where they are coarser, it is still closer to the number than the midpoints to the
neighbours are.
-/

set_option autoImplicit false

namespace Slidecast.Number

/-! ## Halves -/

section NearestEven

variable {q : Rat} {z : Int}

/-- A half is rounded to an even number. -/
theorem even_of_half (half : |q - nearestEven q| = 1 / 2) : nearestEven q % 2 = 0 := by
  generalize same : nearestEven q = z at half
  by_contra odd
  -- an odd number would have an even neighbour that is as near
  rcases (abs_eq (by norm_num)).1 half with above | below
  · have other : nearestEven q = z + 1 := by
      apply nearestEven_eq_of_even
      · omega
      · rw [abs_le]
        push_cast
        constructor <;> linarith
    omega
  · have other : nearestEven q = z - 1 := by
      apply nearestEven_eq_of_even
      · omega
      · rw [abs_le]
        push_cast
        constructor <;> linarith
    omega

/-- Rounding to whole numbers does not depend on the sign. -/
theorem nearestEven_neg (q : Rat) : nearestEven (-q) = -nearestEven q := by
  have mirrored : |-q - ((-nearestEven q : Int) : Rat)| = |q - nearestEven q| := by
    rw [← abs_neg]
    push_cast
    congr 1
    ring
  have near : |q - nearestEven q| ≤ 1 / 2 := by
    rw [abs_sub_comm]
    exact abs_nearestEven_sub_le q
  rcases near.lt_or_eq with less | half
  · exact nearestEven_eq_of_abs_lt (mirrored.trans_lt less)
  · have even := even_of_half half
    exact nearestEven_eq_of_even (by omega) (mirrored.trans_le half.le)

end NearestEven

namespace Binary

/-! ## Signs -/

section Signs

variable {f : Format} {x : Binary f}

theorem toRat_eq_magnitude (x : Binary f) :
    x.toRat = if x.isNegative then -x.magnitude else x.magnitude := by
  cases x with
  | nan => rfl
  | infinite negative => cases negative <;> rfl
  | finite negative m e canonical => exact toRat_finite negative m e canonical

theorem magnitude_nonneg (x : Binary f) : 0 ≤ x.magnitude := by
  cases x with
  | nan => exact le_rfl
  | infinite negative => exact le_rfl
  | finite negative m e canonical => exact mul_nonneg (Nat.cast_nonneg m) (two_zpow_pos e).le

theorem units_neg (places : Nat) (x : Binary f) : (-x).units places = x.units places := by
  show x.negate.units places = x.units places
  cases x <;> rfl

theorem cast_units (places : Nat) (x : Binary f) :
    (x.units places : Rat) = nearestEven (x.magnitude * 10 ^ places) := by
  have scale : ((tenTo places : Nat) : Rat) = 10 ^ places := Nat.cast_pow 10 places
  have nonneg : 0 ≤ nearestEven (x.magnitude * 10 ^ places) :=
    nearestEven_nonneg (mul_nonneg x.magnitude_nonneg (by positivity))
  rw [units, scale, ← Int.cast_natCast, Int.toNat_of_nonneg nonneg]

/-- A negative number is written with the sign in front of the other one. -/
theorem fixed_of_isNegative (hx : x.isFinite = true) (sign : x.isNegative = true) (places : Nat) :
    x.fixed places = "-" ++ (-x).fixed places := by
  cases x with
  | nan => cases hx
  | infinite negative => cases hx
  | finite negative m e canonical =>
      obtain rfl : negative = true := sign
      rfl

theorem readsAs_fixed (hx : x.isFinite = true) (sign : x.isNegative = false) (places : Nat) :
    ReadsAs (x.fixed places).toList (x.units places / 10 ^ places) := by
  refine ⟨?_, _, decimalOfText?_fixed hx sign places, toRat_ofPlaces _ _⟩
  obtain ⟨c, cs, split, digit⟩ := exists_toString_eq_cons (x.units places / tenTo places)
  refine ⟨c, ?_, digit⟩
  rw [fixed_of_isNegative_eq_false hx sign, split]
  cases places <;> rfl

/-- **The text of a number with fixed places** is its sign and a text for its distance from zero. -/
theorem exists_readsAs_fixed (hx : x.isFinite = true) (places : Nat) :
    ∃ text : String, ReadsAs text.toList (x.units places / 10 ^ places) ∧
      x.fixed places = if x.isNegative then "-" ++ text else text := by
  cases sign : x.isNegative with
  | false => exact ⟨x.fixed places, readsAs_fixed hx sign places, rfl⟩
  | true =>
      have other : (-x).isNegative = false := by
        show x.negate.isNegative = false
        cases x with
        | nan => cases hx
        | infinite negative => cases hx
        | finite negative m e canonical =>
            obtain rfl : negative = true := sign
            rfl
      have reads := readsAs_fixed (isFinite_neg.trans hx) other places
      rw [units_neg] at reads
      exact ⟨(-x).fixed places, reads, fixed_of_isNegative hx sign places⟩

/-- A number with fixed places is read as the number nearest to what is written. -/
theorem read?_fixed_of_isFinite (usual : f.Usual) (hx : x.isFinite = true) (places : Nat) :
    read? (x.fixed places) =
      some (ofMagnitude x.isNegative (x.units places / 10 ^ places) : Binary f) := by
  obtain ⟨text, reads, written⟩ := exists_readsAs_fixed hx places
  rw [written]
  exact read?_of_readsAs usual x.isNegative reads

end Signs

end Binary

/-! ## Exact values -/

/-- The exact value of a decimal with or without a sign. -/
def decimalValue? (text : String) : Option Rat :=
  match text.toList with
  | '-' :: cs => (Binary.decimalOfText? cs).map fun d => -d.toRat
  | cs => (Binary.decimalOfText? cs).map Decimal.toRat

theorem decimalValue?_of_readsAs (negative : Bool) {text : String} {value : Rat}
    (reads : Binary.ReadsAs text.toList value) :
    decimalValue? (if negative then "-" ++ text else text) =
      some (if negative then -value else value) := by
  obtain ⟨⟨c, first, digit⟩, d, read, rfl⟩ := reads
  cases negative with
  | true =>
      rw [if_pos rfl, if_pos rfl, decimalValue?, String.toList_append]
      exact congrArg (Option.map fun d : Decimal => -d.toRat) read
  | false =>
      rw [if_neg Bool.false_ne_true, if_neg Bool.false_ne_true, decimalValue?]
      split
      next minus =>
        rw [minus] at first
        cases first
        cases digit
      next => rw [read, Option.map_some]

/-- **The text of a number has its value**, rounded to so many places. -/
theorem decimalValue?_fixed {f : Format} {x : Binary f} (hx : x.isFinite = true) (places : Nat) :
    decimalValue? (x.fixed places) =
      some ((nearestEven (x.toRat * 10 ^ places) : Rat) / 10 ^ places) := by
  obtain ⟨text, reads, written⟩ := Binary.exists_readsAs_fixed hx places
  rw [written, decimalValue?_of_readsAs x.isNegative reads, Binary.cast_units,
    Binary.toRat_eq_magnitude]
  cases x.isNegative with
  | false => rfl
  | true =>
      rw [if_pos rfl, if_pos rfl, neg_mul, nearestEven_neg]
      push_cast
      rw [neg_div]

namespace Binary

/-! ## Thousandths -/

/-- A number that is the nearest one to some thousandths. -/
def IsThousandths (x : Double) : Prop :=
  ∃ (negative : Bool) (k : Nat), x = ofMagnitude negative ((k : Rat) / 1000)

section Thousandths

variable {negative : Bool} {k : Nat}

/-- A value that is not negative becomes a number of one sign or, if it is zero, of the other. -/
theorem exists_nearest_eq {f : Format} {q : Rat} (zeroSign : Bool) (nonneg : 0 ≤ q) :
    ∃ negative, (nearest zeroSign q : Binary f) = ofMagnitude negative q := by
  unfold nearest
  split
  next zero =>
    subst zero
    exact ⟨zeroSign, (ofMagnitude_of_rounded_eq_zero zeroSign le_rfl rounded_zero).symm⟩
  next => exact ⟨false, if_neg (not_lt.2 nonneg)⟩

theorem magnitude_ofMagnitude {f : Format} {q : Rat} (nonneg : 0 ≤ q)
    (finite : (ofMagnitude negative q : Binary f).isFinite = true) :
    (ofMagnitude negative q : Binary f).magnitude = rounded f q := by
  obtain ⟨m, e, canonical, made, value⟩ :=
    ofMagnitude_of_lt negative nonneg ((isFinite_ofMagnitude_iff negative nonneg).1 finite)
  rw [made]
  exact value

/-- Where numbers are finer than thousandths, the text has the thousandths that were rounded. -/
theorem units_of_lt (finite : (ofMagnitude negative ((k : Rat) / 1000) : Double).isFinite = true)
    (small : (k : Rat) / 1000 < 2 ^ (43 : Int)) :
    (ofMagnitude negative ((k : Rat) / 1000) : Double).units 3 = k := by
  have nonneg : (0 : Rat) ≤ k / 1000 := by positivity
  have near := abs_rounded_sub_le_of_lt (f := Format.double) nonneg small (by decide)
  have counted := cast_units 3 (ofMagnitude negative ((k : Rat) / 1000) : Double)
  have close : |rounded Format.double (k / 1000) * 10 ^ 3 - (k : Int)| < 1 / 2 := by
    rw [abs_le] at near
    rw [abs_lt]
    norm_num [Format.double] at near ⊢
    constructor <;> linarith
  rw [magnitude_ofMagnitude nonneg finite, nearestEven_eq_of_abs_lt close] at counted
  exact_mod_cast counted

/-- Numbers of a size whose neighbours are further apart than thousandths. -/
theorem exponent_of_le {m : Nat} {e : Int} (canonical : Format.double.Canonical m e)
    (large : (2 : Rat) ^ (43 : Int) ≤ m * 2 ^ e) : -9 ≤ e := by
  by_contra fine
  have few : (m : Rat) < 2 ^ (53 : Int) := by exact_mod_cast canonical.1
  have most : (m : Rat) * 2 ^ e < 2 ^ (53 : Int) * 2 ^ (-10 : Int) :=
    mul_lt_mul few (zpow_le_zpow_right₀ (by norm_num) (by omega)) (two_zpow_pos e) (by norm_num)
  rw [← zpow_add₀ (by norm_num)] at most
  exact absurd large (not_le.2 most)

/-- Where numbers are coarser than thousandths, the text is closest to the number. -/
theorem roundsBack_units {m : Nat} {e : Int} (canonical : Format.double.Canonical m e)
    (large : (2 : Rat) ^ (43 : Int) ≤ m * 2 ^ e) :
    roundsBack Format.double m e (((finite negative m e canonical).units 3 : Rat) / 10 ^ 3) =
      true := by
  have coarse := exponent_of_le canonical large
  have counted : ((finite negative m e canonical).units 3 : Rat) =
      nearestEven ((m : Rat) * 2 ^ e * 10 ^ 3) := cast_units 3 _
  have near := abs_nearestEven_sub_le ((m : Rat) * 2 ^ e * 10 ^ 3)
  have step : (2 : Rat) ^ (-9 : Int) ≤ 2 ^ e := zpow_le_zpow_right₀ (by norm_num) coarse
  rw [← counted] at near
  generalize (finite negative m e canonical).units 3 = u at counted near ⊢
  rw [roundsBack_iff]
  left
  by_cases narrow : IsNarrow Format.double m e
  · -- a power of two of this size is a whole number, and nothing is rounded
    obtain ⟨n, whole⟩ : ∃ n : Nat, (m : Rat) * 2 ^ e = n := by
      obtain ⟨n, exponent⟩ := Int.eq_ofNat_of_zero_le (by omega : 0 ≤ 52 + e)
      refine ⟨2 ^ n, ?_⟩
      rw [narrow.1, Format.twoTo_eq_zpow, ← zpow_add₀ (by norm_num)]
      push_cast
      rw [← zpow_natCast]
      congr 1
    have scaled : (n : Rat) * 10 ^ 3 = ((n * 10 ^ 3 : Int) : Rat) := by push_cast; rfl
    have same : (u : Rat) / 10 ^ 3 = m * 2 ^ e := by
      rw [counted, whole, scaled, nearestEven_intCast, ← scaled,
        mul_div_cancel_right₀ _ (by norm_num)]
    rw [same]
    exact ⟨lowEnd_lt _ m e, lt_highEnd m e⟩
  · rw [lowEnd, if_neg narrow, highEnd, sub_mul, add_mul]
    rw [abs_le] at near
    norm_num at near step ⊢
    constructor <;> linarith

end Thousandths

/-- **Thousandths are read back** from the text with three places. -/
theorem read?_fixed_three {x : Double} (hx : x.isFinite = true) (thousandths : x.IsThousandths) :
    read? (x.fixed 3) = some x := by
  obtain ⟨negative, k, rfl⟩ := thousandths
  rw [read?_fixed_of_isFinite Format.usual_double hx, isNegative_ofMagnitude]
  congr 1
  have nonneg : (0 : Rat) ≤ k / 1000 := by positivity
  rcases lt_or_ge ((k : Rat) / 1000) (2 ^ (43 : Int)) with small | large
  · rw [units_of_lt hx small]
    norm_num
  · obtain ⟨m, e, canonical, made, value⟩ :=
      ofMagnitude_of_lt negative nonneg ((isFinite_ofMagnitude_iff negative nonneg).1 hx)
    have size : (2 : Rat) ^ (43 : Int) ≤ m * 2 ^ e := by
      rw [value, ← rounded_two_zpow (f := Format.double) (by decide : Format.double.finest ≤ 43)]
      exact rounded_mono (two_zpow_pos _).le large
    have nonzero : m ≠ 0 := by
      rintro rfl
      rw [Nat.cast_zero, zero_mul] at size
      exact absurd (two_zpow_pos 43) (not_lt.2 size)
    rw [made]
    exact ofMagnitude_of_roundsBack negative canonical nonzero (roundsBack_units canonical size)

end Binary

end Slidecast.Number
