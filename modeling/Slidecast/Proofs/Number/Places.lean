import Slidecast.Number.Reading
import Slidecast.Proofs.Number.Arithmetic
import Slidecast.Proofs.Number.Notation

/-!
# Reading fixed places back

A number that is not negative and is written with a fixed number of places is read back as a
decimal: the number in units of the last place, rounded (`decimalOfText?_fixed`).  So what is read
is at most half a unit off (`abs_toRat_ofPlaces_sub_le`).

Reading is rounding: the tests of the first digit for decimals far beyond the largest number and
far below the finest step give what rounding would give (`ofDecimal_eq_ofMagnitude`).  So the text
of a finite number is read as a finite number again, for any number of places
(`exists_read?_fixed`).
-/

set_option autoImplicit false

namespace Slidecast.Number

/-! ## Rows of digits -/

theorem ofDigits_toString (n : Nat) : ofDigits (toString n).toList = n := by
  rw [Nat.toString_eq_repr, Nat.toList_repr]
  exact Nat.ofDigitChars_ten_toDigits

theorem ofDigits_append (front back : List Char) :
    ofDigits (front ++ back) = ofDigits front * 10 ^ back.length + ofDigits back := by
  show Nat.ofDigitChars 10 (front ++ back) 0 =
    Nat.ofDigitChars 10 front 0 * 10 ^ back.length + Nat.ofDigitChars 10 back 0
  rw [Nat.ofDigitChars_append, Nat.ofDigitChars_eq_ofDigitChars_zero, Nat.mul_comm]

/-- Zeros in front of digits do not count. -/
theorem ofDigits_zeros_append (count : Nat) (digits : List Char) :
    ofDigits (List.replicate count '0' ++ digits) = ofDigits digits := by
  have zeros : ofDigits (List.replicate count '0') = 0 :=
    Nat.ofDigitChars_replicate_zero.trans (Nat.mul_zero _)
  rw [ofDigits_append, zeros, Nat.zero_mul, Nat.zero_add]

theorem length_toString_le_iff {n k : Nat} (pos : 0 < k) :
    (toString n).length ≤ k ↔ n < 10 ^ k := by
  have same : (toString n).length = (Nat.toDigits 10 n).length := by
    rw [← String.length_toList]
    simp
  rw [same]
  exact Nat.length_toDigits_le_iff (by decide) pos

theorem exists_toString_eq_cons (n : Nat) :
    ∃ c cs, (toString n).toList = c :: cs ∧ c.isDigit = true := by
  have filled : (toString n).toList ≠ [] := by simp
  obtain ⟨c, cs, split⟩ := List.exists_cons_of_ne_nil filled
  exact ⟨c, cs, split, isDigit_of_mem_toString (split ▸ List.mem_cons_self)⟩

theorem all_isDigit_toString (n : Nat) : (toString n).toList.all Char.isDigit = true :=
  List.all_eq_true.2 fun _ => isDigit_of_mem_toString

/-- A row of characters that begins with some of a kind, and what is behind them. -/
theorem span_append {kind : Char → Bool} {front : List Char} (back : List Char)
    (all : ∀ c ∈ front, kind c = true) (ends : ∀ c ∈ back.head?, kind c = false) :
    (front ++ back).takeWhile kind = front ∧ (front ++ back).dropWhile kind = back := by
  rw [List.takeWhile_append_of_pos all, List.dropWhile_append_of_pos all]
  cases back with
  | nil => simp
  | cons c cs =>
      have other : kind c = false := ends c rfl
      simp [other]

/-! ## Decimals -/

namespace Decimal

variable {d : Decimal}

theorem ten_zpow_pos (e : Int) : (0 : Rat) < 10 ^ e := by positivity

theorem toRat_nonneg (d : Decimal) : 0 ≤ d.toRat :=
  mul_nonneg (Nat.cast_nonneg _) (ten_zpow_pos _).le

theorem ten_zpow_leading_le (nonzero : d.digits ≠ 0) : (10 : Rat) ^ d.leading ≤ d.toRat := by
  obtain ⟨k, length⟩ : ∃ k, d.text.length = k + 1 := by
    obtain ⟨c, cs, split, _⟩ := exists_toString_eq_cons d.digits
    exact ⟨cs.length, by rw [text, ← String.length_toList, split, List.length_cons]⟩
  have digits : 10 ^ k ≤ d.digits := by
    rcases Nat.eq_zero_or_pos k with rfl | pos
    · exact Nat.one_le_iff_ne_zero.2 nonzero
    · by_contra few
      have short := (length_toString_le_iff pos).2 (not_le.1 few)
      rw [text] at length
      omega
  have leading : d.leading = k + d.exponent := by
    rw [Decimal.leading, length]
    omega
  rw [leading, zpow_add₀ (by norm_num), toRat, zpow_natCast]
  exact mul_le_mul_of_nonneg_right (by exact_mod_cast digits) (ten_zpow_pos _).le

theorem toRat_lt_ten_zpow_leading (d : Decimal) : d.toRat < (10 : Rat) ^ (d.leading + 1) := by
  have pos : 0 < d.text.length := by
    obtain ⟨c, cs, split, _⟩ := exists_toString_eq_cons d.digits
    rw [text, ← String.length_toList, split]
    exact Nat.succ_pos _
  have digits : d.digits < 10 ^ d.text.length := (length_toString_le_iff pos).1 le_rfl
  have leading : d.leading + 1 = d.text.length + d.exponent := by
    rw [Decimal.leading]
    omega
  rw [leading, zpow_add₀ (by norm_num), toRat, zpow_natCast]
  exact mul_lt_mul_of_pos_right (by exact_mod_cast digits) (ten_zpow_pos _)

end Decimal

/-! ## Reading is rounding -/

/-- A format with fractions, with whole numbers beyond its significands, and with more than a single
bit. -/
structure Format.Usual (f : Format) : Prop where
  fine : f.finest ≤ 0
  coarse : 0 ≤ f.coarsest
  precise : 2 ≤ f.precision

theorem Format.usual_double : Format.double.Usual := ⟨by decide, by decide, by decide⟩

namespace Binary

variable {x : Double} {places : Nat}

theorem rounded_two_zpow {f : Format} {e : Int} (fine : f.finest ≤ e) :
    rounded f (2 ^ e) = 2 ^ e := by
  have exponent : binaryExponent (2 ^ e) < e + 1 :=
    binaryExponent_lt (two_zpow_pos e) (zpow_lt_zpow_right₀ (by norm_num) (by omega))
  have steps : stepExponent f ((1 : Int) * 2 ^ e) ≤ e := by
    have pos := f.precision_pos
    rw [Int.cast_one, one_mul, stepExponent]
    omega
  simpa using rounded_of_steps steps

/-- What does not get past a power of two below the limit is not rounded past the limit. -/
theorem rounded_lt_limit_double {q : Rat} {e : Int} (nonneg : 0 ≤ q) (below : q ≤ 2 ^ e)
    (fine : -1074 ≤ e) (small : e < 1024) :
    rounded Format.double q < Format.double.limit := by
  calc rounded Format.double q
      ≤ rounded Format.double (2 ^ e) := rounded_mono nonneg below
    _ = 2 ^ e := rounded_two_zpow fine
    _ < Format.double.limit := two_zpow_lt_limit_double small

/-- Rounding to 64 bits changes a value that is not tiny by a small part of it. -/
theorem abs_rounded_sub_le_part {q : Rat} (large : 1 / 2 ^ 40 ≤ q) :
    |rounded Format.double q - q| ≤ q / 2 ^ 53 := by
  have tiny : (2 : Rat) ^ (-1022 : Int) ≤ 1 / 2 ^ 40 := by
    calc (2 : Rat) ^ (-1022 : Int)
        ≤ 2 ^ (-40 : Int) := zpow_le_zpow_right₀ (by norm_num) (by norm_num)
      _ = 1 / 2 ^ 40 := by norm_num
  exact abs_rounded_sub_le_mul (f := Format.double) (tiny.trans large)

/-- What lies below half the finest step is rounded to zero. -/
theorem rounded_eq_zero {f : Format} {q : Rat} (nonneg : 0 ≤ q) (tiny : q < 2 ^ (f.finest - 1)) :
    rounded f q = 0 := by
  rcases nonneg.eq_or_lt with rfl | pos
  · exact rounded_zero
  have step : stepExponent f q = f.finest := by
    have exponent := binaryExponent_lt pos tiny
    have precise := f.precision_pos
    unfold stepExponent
    omega
  have whole : nearestEven (q / 2 ^ f.finest) = 0 := by
    refine nearestEven_eq_of_abs_lt ?_
    have half : (2 : Rat) ^ (f.finest - 1) = 1 / 2 * 2 ^ f.finest := by
      rw [zpow_sub_one₀ (by norm_num)]
      ring
    rw [Int.cast_zero, sub_zero, abs_of_nonneg (div_nonneg nonneg (two_zpow_pos _).le),
      div_lt_iff₀ (two_zpow_pos _), ← half]
    exact tiny
  rw [rounded, step, whole, Int.cast_zero, zero_mul]

theorem ofMagnitude_of_rounded_eq_zero {f : Format} {q : Rat} (negative : Bool) (nonneg : 0 ≤ q)
    (zero : rounded f q = 0) : (ofMagnitude negative q : Binary f) = Binary.zero negative := by
  have value := cast_toNat_nearestEven (f := f) nonneg
  rw [zero, mul_eq_zero, or_iff_left (two_zpow_pos _).ne', Nat.cast_eq_zero] at value
  rw [ofMagnitude, if_pos value]

/-- **A decimal is read as the number nearest to it**, also where its first digit decides. -/
theorem ofDecimal_eq_ofMagnitude {f : Format} (usual : f.Usual) (negative : Bool) (d : Decimal) :
    (ofDecimal negative d : Binary f) = ofMagnitude negative d.toRat := by
  obtain ⟨fine, coarse, _⟩ := usual
  have nonneg := d.toRat_nonneg
  unfold ofDecimal
  split
  next digits =>
    have zero : d.toRat = 0 := by rw [Decimal.toRat, digits, Nat.cast_zero, zero_mul]
    rw [ofMagnitude_of_rounded_eq_zero negative nonneg (by rw [zero, rounded_zero])]
  next nonzero =>
    split
    next large =>
      have beyond : f.limit ≤ d.toRat := by
        calc f.limit ≤ 2 ^ d.leading := zpow_le_zpow_right₀ (by norm_num) large
          _ ≤ 10 ^ d.leading := zpow_le_zpow_left₀ (by omega) (by norm_num) (by norm_num)
          _ ≤ d.toRat := Decimal.ten_zpow_leading_le nonzero
      refine (ofMagnitude_of_le negative nonneg ?_).symm
      calc f.limit = rounded f f.limit := (rounded_two_zpow (by omega)).symm
        _ ≤ rounded f d.toRat := rounded_mono (two_zpow_pos _).le beyond
    next =>
      split
      next small =>
        have tiny : d.toRat < 2 ^ (f.finest - 1) := by
          calc d.toRat < 10 ^ (d.leading + 1) := d.toRat_lt_ten_zpow_leading
            _ ≤ 10 ^ (f.finest - 1) := zpow_le_zpow_right₀ (by norm_num) (by omega)
            _ ≤ 2 ^ (f.finest - 1) := by
                rw [← neg_sub 1 f.finest, zpow_neg, zpow_neg]
                refine inv_anti₀ (two_zpow_pos _) ?_
                exact zpow_le_zpow_left₀ (by omega) (by norm_num) (by norm_num)
        exact (ofMagnitude_of_rounded_eq_zero negative nonneg (rounded_eq_zero nonneg tiny)).symm
      next => rfl

/-! ## Texts of decimals -/

/-- What a text is that begins with digits: digits, and what is behind them. -/
theorem span_digits {whole : List Char} (rest : List Char)
    (digits : whole.all Char.isDigit = true) (ends : ∀ c ∈ rest.head?, c.isDigit = false) :
    (whole ++ rest).takeWhile Char.isDigit = whole ∧
      (whole ++ rest).dropWhile Char.isDigit = rest :=
  span_append rest (List.all_eq_true.1 digits) ends

theorem decimalOfText?_digits {whole : List Char} (digits : whole.all Char.isDigit = true)
    (filled : whole ≠ []) : decimalOfText? whole = some ⟨ofDigits whole, 0⟩ := by
  obtain ⟨taken, dropped⟩ := span_digits [] digits (by simp)
  rw [List.append_nil] at taken dropped
  simp [decimalOfText?, taken, dropped, filled, exponentOf?]

theorem decimalOfText?_point {whole fraction : List Char} (digits : whole.all Char.isDigit = true)
    (filled : whole ≠ []) (digits' : fraction.all Char.isDigit = true) :
    decimalOfText? (whole ++ '.' :: fraction) =
      some ⟨ofDigits (whole ++ fraction), -(fraction.length : Int)⟩ := by
  obtain ⟨taken, dropped⟩ := span_digits ('.' :: fraction) digits (by simp)
  obtain ⟨taken', dropped'⟩ := span_digits [] digits' (by simp)
  rw [List.append_nil] at taken' dropped'
  simp [decimalOfText?, taken, dropped, taken', dropped', filled, exponentOf?]

theorem toLower_of_isDigit {c : Char} (digit : c.isDigit = true) : c.toLower = c := by
  rw [Char.isDigit, Bool.and_eq_true, decide_eq_true_eq, decide_eq_true_eq] at digit
  refine dif_neg ?_
  rintro ⟨upper, _⟩
  have above : 'A'.val.toNat ≤ c.val.toNat := upper
  have below : c.val.toNat ≤ '9'.val.toNat := digit.2
  exact absurd (above.trans below) (by decide)

/-- A text that begins with a digit is no word. -/
theorem unsigned?_of_isDigit {f : Format} (negative : Bool) {c : Char} {cs : List Char}
    (digit : c.isDigit = true) :
    (unsigned? negative (c :: cs) : Option (Binary f)) =
      (decimalOfText? (c :: cs)).map (ofDecimal negative) := by
  have word {d : Char} {ds : List Char} (letter : d.isDigit = false) :
      (c :: cs).map Char.toLower ≠ d :: ds := by
    rw [List.map_cons, toLower_of_isDigit digit]
    intro same
    rw [(List.cons.inj same).1, letter] at digit
    cases digit
  unfold unsigned?
  rw [if_neg, if_neg]
  · exact word (by decide)
  · rintro (short | long)
    · exact word (by decide) short
    · exact word (by decide) long

/-- A text that begins with a digit is neither a sign nor a word. -/
theorem read?_of_isDigit {f : Format} {text : String} {c : Char} {cs : List Char}
    (split : text.toList = c :: cs) (digit : c.isDigit = true) :
    (read? text : Option (Binary f)) = (decimalOfText? text.toList).map (ofDecimal false) := by
  have other {sign : Char} (mark : sign.isDigit = false) : c ≠ sign := by
    rintro rfl
    rw [digit] at mark
    cases mark
  unfold read?
  rw [split]
  split
  next minus => exact absurd (List.cons.inj minus).1 (other (by decide))
  next plus => exact absurd (List.cons.inj plus).1 (other (by decide))
  next => exact unsigned?_of_isDigit false digit

/-! ## Fixed places -/

/-- The distance of a number from zero in units of the last of so many places. -/
def units (places : Nat) {f : Format} (x : Binary f) : Nat :=
  (nearestEven (x.magnitude * tenTo places)).toNat

theorem fixed_of_isNegative_eq_false {f : Format} {x : Binary f} (hx : x.isFinite = true)
    (sign : x.isNegative = false) (places : Nat) :
    (x.fixed places).toList =
      if places = 0 then (toString (x.units places / tenTo places)).toList
      else
        let fraction := (toString (x.units places % tenTo places)).toList
        (toString (x.units places / tenTo places)).toList ++
          '.' :: (List.replicate (places - fraction.length) '0' ++ fraction) := by
  cases x with
  | nan => cases hx
  | infinite negative => cases hx
  | finite negative m e canonical =>
      obtain rfl : negative = false := sign
      generalize scaled : units places (finite false m e canonical) = n
      change (nearestEven ((m : Rat) * 2 ^ e * tenTo places)).toNat = n at scaled
      show (let scaled := (nearestEven ((m : Rat) * 2 ^ e * tenTo places)).toNat
        if places = 0 then toString (scaled / tenTo places)
        else toString (scaled / tenTo places) ++ "." ++ String.ofList
          (List.replicate (places - (toString (scaled % tenTo places)).toList.length) '0' ++
            (toString (scaled % tenTo places)).toList)).toList = _
      rw [scaled]
      split
      next => rfl
      next => simp only [String.toList_append, String.toList_ofList, List.append_assoc]; rfl

/-- **What is read from a number with fixed places** is the number in units of the last place. -/
theorem decimalOfText?_fixed {f : Format} {x : Binary f} (hx : x.isFinite = true)
    (sign : x.isNegative = false) (places : Nat) :
    decimalOfText? (x.fixed places).toList = some ⟨x.units places, -(places : Int)⟩ := by
  have digits := all_isDigit_toString (x.units places / tenTo places)
  have filled : (toString (x.units places / tenTo places)).toList ≠ [] := by simp
  rw [fixed_of_isNegative_eq_false hx sign]
  split
  next whole =>
    subst whole
    rw [decimalOfText?_digits digits filled, ofDigits_toString]
    simp [tenTo]
  next several =>
    generalize fraction_eq : (toString (x.units places % tenTo places)).toList = fraction
    have few : fraction.length ≤ places := by
      rw [← fraction_eq, String.length_toList, length_toString_le_iff (by omega)]
      exact Nat.mod_lt _ (Nat.pow_pos (by decide))
    have digits' : (List.replicate (places - fraction.length) '0' ++ fraction).all Char.isDigit =
        true := by
      rw [List.all_append, ← fraction_eq, all_isDigit_toString]
      simp
    have length : (List.replicate (places - fraction.length) '0' ++ fraction).length = places := by
      rw [List.length_append, List.length_replicate]
      omega
    rw [decimalOfText?_point digits filled digits', length, ofDigits_append, length,
      ofDigits_zeros_append, ofDigits_toString, ← fraction_eq, ofDigits_toString]
    have joined : x.units places / tenTo places * 10 ^ places + x.units places % tenTo places =
        x.units places := Nat.div_add_mod' _ _
    rw [joined]

/-- A number with fixed places is read as the number nearest to the decimal that is written. -/
theorem read?_fixed {f : Format} {x : Binary f} (hx : x.isFinite = true)
    (sign : x.isNegative = false) (places : Nat) :
    (read? (x.fixed places) : Option (Binary f)) =
      some (ofDecimal false ⟨x.units places, -(places : Int)⟩) := by
  obtain ⟨c, cs, split, digit⟩ := exists_toString_eq_cons (x.units places / tenTo places)
  have text := fixed_of_isNegative_eq_false hx sign places
  obtain ⟨cs', begins⟩ : ∃ cs', (x.fixed places).toList = c :: cs' := by
    rw [text]
    split
    next => exact ⟨cs, split⟩
    next => exact ⟨_, by rw [split]; rfl⟩
  rw [read?_of_isDigit begins digit, decimalOfText?_fixed hx sign, Option.map_some]

/-- The value of a decimal with so many places. -/
theorem toRat_ofPlaces (n places : Nat) :
    (Decimal.mk n (-(places : Int))).toRat = n / (10 : Rat) ^ places := by
  rw [Decimal.toRat, zpow_neg, zpow_natCast, div_eq_mul_inv]

/-- A number counts to half a unit. -/
theorem abs_units_sub_le {f : Format} {x : Binary f} (hx : x.isFinite = true)
    (nonneg : 0 ≤ x.toRat) (places : Nat) :
    |(x.units places : Rat) - x.toRat * 10 ^ places| ≤ 1 / 2 := by
  have scale : ((tenTo places : Nat) : Rat) = 10 ^ places := Nat.cast_pow 10 places
  have whole : 0 ≤ nearestEven (x.magnitude * tenTo places) := by
    rw [magnitude_of_nonneg hx nonneg]
    exact nearestEven_nonneg (mul_nonneg nonneg (Nat.cast_nonneg _))
  have counted : (x.units places : Rat) = nearestEven (x.magnitude * tenTo places) := by
    rw [units, ← Int.cast_natCast, Int.toNat_of_nonneg whole]
  rw [counted, ← scale, ← magnitude_of_nonneg hx nonneg]
  exact abs_nearestEven_sub_le _

/-- **What is read is at most half a unit off.** -/
theorem abs_toRat_ofPlaces_sub_le {f : Format} {x : Binary f} (hx : x.isFinite = true)
    (nonneg : 0 ≤ x.toRat) (places : Nat) :
    |(Decimal.mk (x.units places) (-(places : Int))).toRat - x.toRat| ≤ 1 / (2 * 10 ^ places) := by
  have scale : (0 : Rat) < 10 ^ places := by positivity
  have counted := abs_units_sub_le hx nonneg places
  have same : (Decimal.mk (x.units places) (-(places : Int))).toRat - x.toRat =
      (x.units places - x.toRat * 10 ^ places) / 10 ^ places := by
    rw [toRat_ofPlaces]
    field_simp
  rw [same, abs_div, abs_of_pos scale, div_le_div_iff₀ scale (by positivity)]
  nlinarith

/-- Something is counted exactly from more than half a unit on. -/
theorem units_pos_iff {f : Format} {x : Binary f} (hx : x.isFinite = true)
    (nonneg : 0 ≤ x.toRat) (places : Nat) :
    0 < x.units places ↔ 1 / 2 < x.toRat * 10 ^ places := by
  have scale : ((tenTo places : Nat) : Rat) = 10 ^ places := Nat.cast_pow 10 places
  rw [← nearestEven_pos_iff, ← scale, ← magnitude_of_nonneg hx nonneg, units, Int.lt_toNat]
  rfl

/-- Rounding what is read gives no infinity: either nothing was rounded when it was written, or it
is small. -/
theorem rounded_toRat_ofPlaces_lt {x : Double} (hx : x.isFinite = true) (nonneg : 0 ≤ x.toRat)
    (places : Nat) :
    rounded Format.double (Decimal.mk (x.units places) (-(places : Int))).toRat <
      Format.double.limit := by
  rcases whole_or_lt hx nonneg with ⟨n, whole⟩ | small
  · have counted : (x.units places : Rat) = x.toRat * 10 ^ places := by
      have near := abs_units_sub_le hx nonneg places
      rw [whole] at near ⊢
      have integer : |((x.units places - n * 10 ^ places : Int) : Rat)| < 1 := by
        push_cast
        linarith
      have difference : (x.units places : Int) - n * 10 ^ places = 0 := by
        rw [← Int.cast_abs] at integer
        exact Int.abs_lt_one_iff.1 (by exact_mod_cast integer)
      exact_mod_cast sub_eq_zero.1 difference
    rw [toRat_ofPlaces, counted, mul_div_cancel_right₀ _ (by positivity), rounded_toRat hx nonneg]
    exact toRat_lt_limit hx nonneg
  · have near := (abs_le.1 (abs_toRat_ofPlaces_sub_le hx nonneg places)).2
    have unit : (1 : Rat) / (2 * 10 ^ places) ≤ 1 := by
      rw [div_le_one (by positivity)]
      have := one_le_pow₀ (n := places) (by norm_num : (1 : Rat) ≤ 10)
      linarith
    have room : (2 : Rat) ^ 52 + 1 < 2 ^ (53 : Int) := by norm_num
    have few : (Decimal.mk (x.units places) (-(places : Int))).toRat ≤ 2 ^ (53 : Int) := by
      linarith
    exact rounded_lt_limit_double (Decimal.toRat_nonneg _) few (by decide) (by decide)

/-- **The text of a finite number is read as a finite number**: the one nearest to the decimal. -/
theorem exists_read?_fixed {x : Double} (hx : x.isFinite = true) (sign : x.isNegative = false)
    (places : Nat) :
    ∃ y : Double, read? (x.fixed places) = some y ∧
      y.HasValue (rounded Format.double (x.units places / 10 ^ places)) := by
  have nonneg : 0 ≤ x.toRat := toRat_nonneg_of_isNegative_eq_false sign
  have within := rounded_toRat_ofPlaces_lt hx nonneg places
  have scaled := Decimal.toRat_nonneg ⟨x.units places, -(places : Int)⟩
  refine ⟨_, read?_fixed hx sign places, ?_⟩
  rw [ofDecimal_eq_ofMagnitude Format.usual_double, ← toRat_ofPlaces]
  have finite := (isFinite_ofMagnitude_iff false scaled).2 within
  exact ⟨finite, toRat_ofMagnitude scaled finite⟩

end Binary

end Slidecast.Number
