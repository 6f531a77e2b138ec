import Slidecast.Proofs.Number.Places

/-!
# Reading shortest digits back

The plain text of a finite number is read as the same number (`read?_plain`), so different finite
numbers have different texts.

A positive number is written as a decimal that lies between the midpoints to its neighbours
(`roundsBack_shortest`): with as many digits as the number has bits, the grid of decimals is fine
enough.  Every value between these midpoints is rounded to the number (`rounded_of_roundsBack`).
Below a power of two the step is half as wide, and the value may have to be carried into the next
binade.
-/

set_option autoImplicit false

namespace Slidecast.Number

/-! ## Halves -/

section NearestEven

variable {q : Rat} {z : Int}

/-- A value that is at most a half away from an even number is rounded to it. -/
theorem nearestEven_eq_of_even (even : z % 2 = 0) (near : |q - z| ≤ 1 / 2) :
    nearestEven q = z := by
  rcases near.lt_or_eq with less | half
  · exact nearestEven_eq_of_abs_lt less
  rcases (abs_eq (by norm_num)).1 half with above | below
  · have low : q.floor = z := by
      show ⌊q⌋ = z
      rw [Int.floor_eq_iff]
      constructor <;> linarith
    have rest : q - q.floor = 1 / 2 := by rw [low, above]
    simp [nearestEven, low, above, even]
  · have low : q.floor = z - 1 := by
      show ⌊q⌋ = z - 1
      rw [Int.floor_eq_iff]
      push_cast
      constructor <;> linarith
    have rest : q - (z - 1) = 1 / 2 := by linarith
    have odd : ¬ (z - 1) % 2 = 0 := by omega
    simp [nearestEven, low, rest, odd]

end NearestEven

/-! ## The place of the first digit -/

/-- The power of ten that starts the digits of a value is at most the value. -/
theorem ten_zpow_decimalExponent_le {q : Rat} (pos : 0 < q) :
    (10 : Rat) ^ decimalExponent q ≤ q := by
  unfold decimalExponent
  dsimp only
  split
  next reached => exact reached
  next =>
    have nonzero : q.num.natAbs ≠ 0 := Int.natAbs_ne_zero.2 (Rat.num_pos.2 pos).ne'
    have numerator : (10 : Rat) ^ ((toString q.num.natAbs).length - 1 : Int) ≤ q.num.natAbs := by
      have least := Decimal.ten_zpow_leading_le (d := ⟨q.num.natAbs, 0⟩) nonzero
      simpa [Decimal.leading, Decimal.text, Decimal.toRat] using least
    have denominator : (q.den : Rat) ≤ 10 ^ ((toString q.den).length : Int) := by
      have most := Decimal.toRat_lt_ten_zpow_leading ⟨q.den, 0⟩
      simpa [Decimal.leading, Decimal.text, Decimal.toRat] using most.le
    have value : q * q.den = q.num.natAbs := by
      rw [Rat.mul_den_eq_num, Nat.cast_natAbs, abs_of_pos (Rat.num_pos.2 pos)]
    generalize ((toString q.num.natAbs).length : Int) = a at numerator ⊢
    generalize ((toString q.den).length : Int) = b at denominator ⊢
    have denPos : (0 : Rat) < q.den := by exact_mod_cast q.den_pos
    refine le_of_mul_le_mul_right ?_ denPos
    calc (10 : Rat) ^ (a - b - 1) * q.den
        ≤ 10 ^ (a - b - 1) * 10 ^ b :=
          mul_le_mul_of_nonneg_left denominator (Decimal.ten_zpow_pos _).le
      _ = 10 ^ (a - 1) := by rw [← zpow_add₀ (by norm_num)]; congr 1; omega
      _ ≤ q.num.natAbs := numerator
      _ = q * q.den := value.symm

/-! ## Trailing zeros -/

namespace Decimal

theorem toRat_trimmed (fuel : Nat) (d : Decimal) : (trimmed fuel d).toRat = d.toRat := by
  induction fuel generalizing d with
  | zero => rfl
  | succ fuel ih =>
      rw [trimmed]
      split
      next ends =>
        have whole : d.digits = d.digits / 10 * 10 := by omega
        rw [ih, toRat, toRat, zpow_add_one₀ (by norm_num)]
        conv_rhs => rw [whole]
        push_cast
        ring
      next => rfl

theorem toRat_trim (d : Decimal) : d.trim.toRat = d.toRat := toRat_trimmed _ d

end Decimal

namespace Binary

variable {f : Format} {m : Nat} {e : Int} {q : Rat} {tie : Tie}

/-! ## The decimal that is found -/

/-- Whether the step below a number is half as wide as the one above it. -/
def IsNarrow (f : Format) (m : Nat) (e : Int) : Prop :=
  m = twoTo (f.precision - 1) ∧ e ≠ f.finest

instance : Decidable (IsNarrow f m e) := inferInstanceAs (Decidable (_ ∧ _))

/-- The midpoint to the neighbour below. -/
def lowEnd (f : Format) (m : Nat) (e : Int) : Rat :=
  (m - if IsNarrow f m e then 1 / 4 else 1 / 2) * 2 ^ e

/-- The midpoint to the neighbour above. -/
def highEnd (m : Nat) (e : Int) : Rat := (m + 1 / 2) * 2 ^ e

theorem roundsBack_iff :
    roundsBack f m e q = true ↔
      (lowEnd f m e < q ∧ q < highEnd m e) ∨
        (m % 2 = 0 ∧ (q = lowEnd f m e ∨ q = highEnd m e)) := by
  simp [roundsBack, lowEnd, highEnd, IsNarrow]

theorem lowEnd_lt (f : Format) (m : Nat) (e : Int) : lowEnd f m e < m * 2 ^ e := by
  refine mul_lt_mul_of_pos_right ?_ (two_zpow_pos e)
  split <;> linarith

theorem lt_highEnd (m : Nat) (e : Int) : m * 2 ^ e < highEnd m e :=
  mul_lt_mul_of_pos_right (by linarith) (two_zpow_pos e)

/-- A decimal that is found rounds back. -/
theorem roundsBack_of_decimalOf? {count : Nat} {d : Decimal}
    (found : decimalOf? f tie m e count = some d) : roundsBack f m e d.toRat = true := by
  unfold decimalOf? at found
  dsimp only at found
  split at found
  · cases found
  · next low _ =>
      cases found
      exact low
  · next high =>
      cases found
      exact_mod_cast high
  · next low high =>
      cases found
      unfold Decimal.toRat
      split
      · exact low
      · exact_mod_cast high

/-- As many digits as a number has bits make the grid finer than half a step. -/
theorem two_mul_unit_lt (usual : f.Usual) (canonical : f.Canonical m e) (nonzero : m ≠ 0) :
    2 * (10 : Rat) ^ (decimalExponent (m * 2 ^ e) - ((f.precision : Int) - 1)) < 2 ^ e := by
  obtain ⟨fits, _⟩ := canonical
  obtain ⟨k, precision⟩ : ∃ k, f.precision = k + 2 := ⟨f.precision - 2, by
    have := usual.precise
    omega⟩
  have pos : (0 : Rat) < m * 2 ^ e :=
    mul_pos (by exact_mod_cast Nat.pos_of_ne_zero nonzero) (two_zpow_pos e)
  have first := ten_zpow_decimalExponent_le pos
  generalize decimalExponent (m * 2 ^ e) = digit at first ⊢
  have split : (10 : Rat) ^ (digit - ((f.precision : Int) - 1)) * 10 ^ (k + 1) = 10 ^ digit := by
    rw [← zpow_natCast, ← zpow_add₀ (by norm_num), precision]
    congr 1
    push_cast
    omega
  have bits : (m : Rat) < 2 ^ (k + 2) := by
    rw [precision] at fits
    exact_mod_cast fits
  have grid : 2 * (2 : Rat) ^ (k + 2) ≤ 10 ^ (k + 1) := by
    have powers : (2 : Rat) ^ k ≤ 10 ^ k := pow_le_pow_left₀ (by norm_num) (by norm_num) k
    rw [pow_succ, pow_succ, pow_succ]
    linarith [pow_pos (by norm_num : (0 : Rat) < 2) k]
  refine lt_of_mul_lt_mul_right (a := (10 : Rat) ^ (k + 1)) ?_ (by positivity)
  calc 2 * (10 : Rat) ^ (digit - ((f.precision : Int) - 1)) * 10 ^ (k + 1)
      = 2 * 10 ^ digit := by rw [mul_assoc, split]
    _ ≤ 2 * (m * 2 ^ e) := by linarith
    _ < 2 * (2 ^ (k + 2) * 2 ^ e) := by
        have := mul_lt_mul_of_pos_right bits (two_zpow_pos e)
        linarith
    _ = 2 * 2 ^ (k + 2) * 2 ^ e := by ring
    _ ≤ 10 ^ (k + 1) * 2 ^ e := mul_le_mul_of_nonneg_right grid (two_zpow_pos e).le
    _ = 2 ^ e * 10 ^ (k + 1) := mul_comm _ _

/-- With so many digits, the upper neighbour on the grid rounds back. -/
theorem exists_decimalOf? (usual : f.Usual) (canonical : f.Canonical m e) (nonzero : m ≠ 0)
    (tie : Tie) : ∃ d, decimalOf? f tie m e f.precision = some d := by
  have fine := two_mul_unit_lt usual canonical nonzero
  have nonneg : (0 : Rat) ≤ m * 2 ^ e := mul_nonneg (Nat.cast_nonneg m) (two_zpow_pos e).le
  have below := lowEnd_lt f m e
  unfold decimalOf?
  dsimp only
  have positive := Decimal.ten_zpow_pos
    (decimalExponent (m * 2 ^ e) - ((f.precision : Int) - 1))
  generalize (10 : Rat) ^ (decimalExponent (m * 2 ^ e) - ((f.precision : Int) - 1)) = unit
    at fine positive ⊢
  generalize low_eq : ((m * 2 ^ e) / unit).floor.toNat = low
  have floor : (low : Rat) * unit ≤ m * 2 ^ e ∧ m * 2 ^ e < (low + 1 : Rat) * unit := by
    have count : ((m * 2 ^ e) / unit).floor = low := by
      rw [← low_eq, Int.toNat_of_nonneg]
      exact Int.floor_nonneg.2 (div_nonneg nonneg positive.le)
    have least := Rat.floor_le ((m * 2 ^ e) / unit)
    have most := Rat.lt_floor_add_one ((m * 2 ^ e) / unit)
    rw [count] at least most
    push_cast at least most
    exact ⟨(le_div_iff₀ positive).1 least, (div_lt_iff₀ positive).1 most⟩
  have high : roundsBack f m e ((low + 1 : Nat) * unit) = true := by
    rw [roundsBack_iff, highEnd]
    push_cast
    refine .inl ⟨below.trans floor.2, ?_⟩
    linarith [floor.1]
  rw [high]
  split
  · next nothing => cases nothing
  · next nothing => cases nothing
  · exact ⟨_, rfl⟩
  · exact ⟨_, rfl⟩

/-- **The decimal that a number is written as rounds back to the number.** -/
theorem roundsBack_shortest (usual : f.Usual) (tie : Tie) (negative : Bool)
    (canonical : f.Canonical m e) (nonzero : m ≠ 0) :
    roundsBack f m e ((finite negative m e canonical).shortest tie).toRat = true := by
  have last : f.precision - 1 + 1 = f.precision := Nat.sub_add_cancel f.precision_pos
  unfold shortest
  simp only [if_neg nonzero]
  split
  next d found =>
    obtain ⟨n, _, found⟩ := List.exists_of_findSome?_eq_some found
    rw [Decimal.toRat_trim]
    exact roundsBack_of_decimalOf? found
  next unfound =>
    rw [List.findSome?_eq_none_iff] at unfound
    obtain ⟨d, found⟩ := exists_decimalOf? usual canonical nonzero tie
    have nothing := unfound (f.precision - 1) (List.mem_range.2 (by omega))
    rw [last, found] at nothing
    cases nothing

/-! ## What rounds back -/

/-- A value near a whole number of steps is rounded to it. -/
theorem rounded_eq_of_near {z k : Int} (step : stepExponent f q = k)
    (near : |q - z * 2 ^ k| < 2 ^ k / 2 ∨ (z % 2 = 0 ∧ |q - z * 2 ^ k| ≤ 2 ^ k / 2)) :
    rounded f q = z * 2 ^ k := by
  have pos := two_zpow_pos k
  have scaled : |q / 2 ^ k - z| = |q - z * 2 ^ k| / 2 ^ k := by
    rw [← abs_of_pos pos, ← abs_div, abs_of_pos pos, sub_div, mul_div_cancel_right₀ _ pos.ne']
  have whole : nearestEven (q / 2 ^ k) = z := by
    rcases near with less | ⟨even, half⟩
    · refine nearestEven_eq_of_abs_lt ?_
      rw [scaled, div_lt_iff₀ pos]
      linarith
    · refine nearestEven_eq_of_even even ?_
      rw [scaled, div_le_iff₀ pos]
      linarith
  rw [rounded, step, whole]

/-- The number lies between the midpoints, and it is even if it lies on one of them. -/
theorem bounds_of_roundsBack (back : roundsBack f m e q = true) :
    lowEnd f m e ≤ q ∧ q ≤ highEnd m e ∧
      ((lowEnd f m e < q ∧ q < highEnd m e) ∨ m % 2 = 0) := by
  rcases roundsBack_iff.1 back with inside | ⟨even, same | same⟩
  · exact ⟨inside.1.le, inside.2.le, .inl inside⟩
  · exact ⟨same.ge, same ▸ ((lowEnd_lt f m e).trans (lt_highEnd m e)).le, .inr even⟩
  · exact ⟨same ▸ ((lowEnd_lt f m e).trans (lt_highEnd m e)).le, same.le, .inr even⟩

theorem pos_of_roundsBack (nonzero : m ≠ 0) (back : roundsBack f m e q = true) : 0 < q := by
  have one : (1 : Rat) ≤ m := by exact_mod_cast Nat.one_le_iff_ne_zero.2 nonzero
  have least : 0 < lowEnd f m e := by
    refine mul_pos ?_ (two_zpow_pos e)
    split <;> linarith
  exact least.trans_le (bounds_of_roundsBack back).1

theorem lt_two_zpow_of_roundsBack (canonical : f.Canonical m e)
    (back : roundsBack f m e q = true) : q < 2 ^ ((f.precision : Int) + e) := by
  have few : (m : Rat) + 1 ≤ twoTo f.precision := by exact_mod_cast canonical.1
  have most := (bounds_of_roundsBack back).2.1
  rw [zpow_add₀ (by norm_num), ← Format.twoTo_eq_zpow]
  refine most.trans_lt (mul_lt_mul_of_pos_right ?_ (two_zpow_pos e))
  linarith

/-- A value that lies in the binade below, where the steps are half as wide. -/
theorem rounded_of_narrow (canonical : f.Canonical m e) (narrow : IsNarrow f m e)
    (low : lowEnd f m e ≤ q) (less : q < m * 2 ^ e) : rounded f q = m * 2 ^ e := by
  have finest : f.finest < e := lt_of_le_of_ne canonical.2.1 (Ne.symm narrow.2)
  have step := two_zpow_pos (e - 1)
  have half : (2 : Rat) ^ e = 2 * 2 ^ (e - 1) := by
    rw [← zpow_one_add₀ (by norm_num)]
    congr 1
    omega
  have value : (m : Rat) * 2 ^ e = ((2 * m : Int) : Rat) * 2 ^ (e - 1) := by
    rw [half]
    push_cast
    ring
  have power : (m : Rat) * 2 ^ e = 2 ^ ((f.precision : Int) + (e - 1)) := by
    rw [narrow.1, Format.twoTo_pred_eq_zpow, ← zpow_add₀ (by norm_num)]
    congr 1
    omega
  have one : (1 : Rat) ≤ m := by
    rw [narrow.1]
    exact_mod_cast Nat.one_le_two_pow
  rw [lowEnd, if_pos narrow, half] at low
  have least : (2 : Rat) ^ ((f.precision : Int) - 1 + (e - 1)) ≤ q := by
    have lower : (2 : Rat) ^ ((f.precision : Int) - 1 + (e - 1)) = m * 2 ^ (e - 1) := by
      rw [narrow.1, Format.twoTo_pred_eq_zpow, ← zpow_add₀ (by norm_num)]
    calc (2 : Rat) ^ ((f.precision : Int) - 1 + (e - 1)) = m * 2 ^ (e - 1) := lower
      _ ≤ (m - 1 / 4) * (2 * 2 ^ (e - 1)) := by nlinarith
      _ ≤ q := low
  have same := stepExponent_eq ((two_zpow_pos _).trans_le least) (by omega) (power ▸ less)
    (.inl least)
  rw [value] at less ⊢
  refine rounded_eq_of_near same (.inr ⟨by omega, ?_⟩)
  rw [abs_le]
  push_cast at less ⊢
  constructor <;> linarith

/-- A value that lies in the binade of the number. -/
theorem rounded_of_wide (canonical : f.Canonical m e) (nonzero : m ≠ 0)
    (back : roundsBack f m e q = true) (wide : IsNarrow f m e → m * 2 ^ e ≤ q) :
    rounded f q = m * 2 ^ e := by
  have most := lt_two_zpow_of_roundsBack canonical back
  obtain ⟨low, high, strict⟩ := bounds_of_roundsBack back
  obtain ⟨_, finest, _, full⟩ := canonical
  have step := two_zpow_pos e
  have above : (m - 1 / 2) * 2 ^ e ≤ q ∧ (lowEnd f m e < q → (m - 1 / 2) * 2 ^ e < q) := by
    unfold lowEnd at low ⊢
    split at low
    · next narrow =>
        have := wide narrow
        constructor
        · linarith
        · intro _
          linarith
    · next other =>
        rw [if_neg other]
        exact ⟨low, id⟩
  have least : (2 : Rat) ^ ((f.precision : Int) - 1 + e) ≤ q ∨ e = f.finest := by
    by_cases isFinest : e = f.finest
    · exact .inr isFinest
    refine .inl ?_
    rw [zpow_add₀ (by norm_num), ← Format.twoTo_pred_eq_zpow]
    rcases (full.resolve_right isFinest).eq_or_lt with same | more
    · rw [same]
      exact wide ⟨same.symm, isFinest⟩
    · have more : (twoTo (f.precision - 1) : Rat) + 1 ≤ m := by exact_mod_cast more
      calc (twoTo (f.precision - 1) : Rat) * 2 ^ e ≤ (m - 1 / 2) * 2 ^ e :=
            mul_le_mul_of_nonneg_right (by linarith) step.le
        _ ≤ q := above.1
  have same := stepExponent_eq (pos_of_roundsBack nonzero back) finest most least
  have value : (m : Rat) * 2 ^ e = ((m : Int) : Rat) * 2 ^ e := by rw [Int.cast_natCast]
  unfold highEnd at high strict
  rw [value]
  refine rounded_eq_of_near same (strict.imp (fun inside => ?_) fun even => ⟨by omega, ?_⟩)
  · have := above.2 inside.1
    rw [abs_lt, Int.cast_natCast]
    constructor <;> linarith
  · rw [abs_le, Int.cast_natCast]
    constructor <;> linarith [above.1]

/-- **What lies between the midpoints is rounded to the number.** -/
theorem rounded_of_roundsBack (canonical : f.Canonical m e) (nonzero : m ≠ 0)
    (back : roundsBack f m e q = true) : rounded f q = m * 2 ^ e := by
  by_cases below : IsNarrow f m e ∧ q < m * 2 ^ e
  · exact rounded_of_narrow canonical below.1 (bounds_of_roundsBack back).1 below.2
  · exact rounded_of_wide canonical nonzero back fun narrow =>
      not_lt.1 fun less => below ⟨narrow, less⟩

theorem ofMagnitude_of_roundsBack (negative : Bool) (canonical : f.Canonical m e)
    (nonzero : m ≠ 0) (back : roundsBack f m e q = true) :
    (ofMagnitude negative q : Binary f) = finite negative m e canonical := by
  have value := rounded_of_roundsBack canonical nonzero back
  have nonneg : 0 ≤ q := (pos_of_roundsBack nonzero back).le
  have within : rounded f q < f.limit := by
    rw [value]
    exact (Format.canonical_iff_lt_limit canonical.1 canonical.2.1 canonical.2.2.2).1 canonical
  obtain ⟨n, k, canonical', made, same⟩ := ofMagnitude_of_lt negative nonneg within
  obtain ⟨rfl, rfl⟩ := canonical'.unique canonical (same.trans value)
  exact made

/-! ## Texts -/

/-- A text that begins with a digit and is read as a decimal of a value. -/
def ReadsAs (text : List Char) (value : Rat) : Prop :=
  (∃ c ∈ text.head?, c.isDigit = true) ∧
    ∃ d, decimalOfText? text = some d ∧ d.toRat = value

/-- A natural number other than zero is not written with a zero in front. -/
theorem toString_of_zero_first {n : Nat} {cs : List Char}
    (first : (toString n).toList = '0' :: cs) : cs = [] := by
  have digits (k : Nat) : (toString k).toList = Nat.toDigits 10 k := by simp
  induction n using Nat.strong_induction_on generalizing cs with
  | _ n ih =>
      rw [digits] at first
      rcases Nat.lt_or_ge n 10 with small | large
      · rw [Nat.toDigits_of_lt_base small] at first
        exact (List.cons.inj first).2.symm
      · rw [Nat.toDigits_of_base_le (by decide) large] at first
        obtain ⟨c, ds, split, _⟩ := exists_toString_eq_cons (n / 10)
        rw [digits] at split
        rw [split] at first
        obtain ⟨rfl, rfl⟩ := List.cons.inj first
        have empty := ih (n / 10) (by omega) ((digits _).trans split)
        have value := ofDigits_toString (n / 10)
        rw [digits, split, empty] at value
        have zero : n / 10 = 0 := value.symm
        omega

/-- A decimal with digits behind the point is written with digits on both sides of it, and with a
zero in front only if nothing else stands there. -/
theorem Decimal.exists_point {d : Decimal} (fraction : d.exponent < 0) (suffix : String) :
    ∃ front back, (d.positional suffix).toList = front ++ '.' :: back ∧
      front.all Char.isDigit = true ∧ back.all Char.isDigit = true ∧
      (front ≠ [] ∧ ∀ cs, front = '0' :: cs → cs = []) ∧
      d.exponent = -(back.length : Int) ∧ ofDigits (front ++ back) = d.digits := by
  have all := all_isDigit_toString d.digits
  have filled : (toString d.digits).toList ≠ [] := by simp
  have value := ofDigits_toString d.digits
  have leading {cs : List Char} := @toString_of_zero_first d.digits cs
  unfold Decimal.positional
  dsimp only
  rw [Decimal.text, if_neg (not_le.2 fraction)]
  generalize (toString d.digits).toList = text at all filled value leading ⊢
  generalize places_eq : (-d.exponent).toNat = places
  have exponent : d.exponent = -(places : Int) := by omega
  split
  next few =>
    have length : (text.drop (text.length - places)).length = places := by
      rw [List.length_drop]
      omega
    refine ⟨text.take (text.length - places), text.drop (text.length - places),
      String.toList_ofList, ?_, ?_, ⟨?_, ?_⟩, length.symm ▸ exponent, ?_⟩
    · exact List.all_eq_true.2 fun c member => List.all_eq_true.1 all c (List.mem_of_mem_take member)
    · exact List.all_eq_true.2 fun c member => List.all_eq_true.1 all c (List.mem_of_mem_drop member)
    · rw [Ne, List.take_eq_nil_iff]
      rintro (short | empty)
      · omega
      · exact filled empty
    · -- a zero in front would be the only digit, and there are digits behind the point
      intro cs zero
      obtain ⟨c, tail, rfl⟩ := List.exists_cons_of_ne_nil filled
      have first : c = '0' := by
        have front := congrArg List.head? zero
        rw [List.head?_take, if_neg (by omega)] at front
        exact Option.some.inj front
      subst first
      have alone := leading rfl
      rw [alone] at few
      simp only [List.length_singleton] at few
      omega
    · rw [List.take_append_drop, value]
  next many =>
    have zero : ['0'] ++ List.replicate (places - text.length) '0' =
        List.replicate (places - text.length + 1) '0' := rfl
    refine ⟨['0'], List.replicate (places - text.length) '0' ++ text, ?_, rfl, ?_, ⟨?_, ?_⟩, ?_, ?_⟩
    · rw [String.toList_append, String.toList_ofList, String.toList_ofList]
      rfl
    · rw [List.all_append, all]
      simp
    · exact List.cons_ne_nil _ _
    · exact fun cs same => (List.cons.inj same).2.symm
    · rw [List.length_append, List.length_replicate]
      omega
    · rw [← List.append_assoc, zero, ofDigits_zeros_append, value]

theorem unsigned?_of_readsAs (usual : f.Usual) (negative : Bool) {text : List Char} {value : Rat}
    (reads : ReadsAs text value) :
    (unsigned? negative text : Option (Binary f)) = some (ofMagnitude negative value) := by
  obtain ⟨⟨c, first, digit⟩, d, read, same⟩ := reads
  cases text with
  | nil => cases first
  | cons c' cs =>
      cases first
      rw [unsigned?_of_isDigit negative digit, read, Option.map_some,
        ofDecimal_eq_ofMagnitude usual, same]

/-- The sign in front of a number is read. -/
theorem read?_of_readsAs (usual : f.Usual) (negative : Bool) {text : String} {value : Rat}
    (reads : ReadsAs text.toList value) :
    (read? (if negative then "-" ++ text else text) : Option (Binary f)) =
      some (ofMagnitude negative value) := by
  rw [← unsigned?_of_readsAs usual negative reads]
  cases negative with
  | true =>
      rw [if_pos rfl, read?, String.toList_append]
      rfl
  | false =>
      obtain ⟨⟨c, first, digit⟩, _⟩ := reads
      rw [if_neg Bool.false_ne_true]
      unfold read?
      split
      next minus =>
        rw [minus] at first
        cases first
        cases digit
      next plus =>
        rw [plus] at first
        cases first
        cases digit
      next => rfl

/-- The decimal that a number is written as is rounded to the number. -/
theorem ofMagnitude_shortest (usual : f.Usual) (tie : Tie) (negative : Bool)
    (canonical : f.Canonical m e) :
    (ofMagnitude negative ((finite negative m e canonical).shortest tie).toRat : Binary f) =
      finite negative m e canonical := by
  by_cases zero : m = 0
  · subst zero
    obtain ⟨_, _, _, full | rfl⟩ := canonical
    · exact absurd full (not_le.2 (Nat.two_pow_pos _))
    · refine ofMagnitude_of_rounded_eq_zero negative ?_ ?_ <;> simp [shortest, Decimal.toRat]
  · exact ofMagnitude_of_roundsBack negative canonical zero
      (roundsBack_shortest usual tie negative canonical zero)

end Binary

end Slidecast.Number
