import Slidecast.Proofs.Number.Canonical
import Mathlib.Algebra.Order.Floor.Ring
import Mathlib.Data.Int.Log
import Mathlib.Data.Rat.Floor
import Mathlib.Tactic.Linarith

/-!
# Rounding to the nearest number

Rounding takes a value to a whole number of steps, and the step depends on the value alone.
`rounded f q` is the value that comes out when the format has no largest number: it is off by at
most half a step (`abs_rounded_sub_le`), never goes back (`rounded_mono`), and leaves the values
of the format alone (`rounded_of_canonical`).  A number of the format has this value as long as it
lies below the limit of the format, and is an infinity from there on (`ofMagnitude_of_lt`,
`ofMagnitude_of_le`).
-/

set_option autoImplicit false

namespace Slidecast.Number

/-! ## Whole numbers -/

section NearestEven

variable {q r : Rat}

/-- The nearest whole number is at most a half away. -/
theorem abs_nearestEven_sub_le (q : Rat) : |(nearestEven q : Rat) - q| ≤ 1 / 2 := by
  have low : (q.floor : Rat) ≤ q := Rat.floor_le q
  have high : q < q.floor + 1 := by exact_mod_cast Rat.lt_floor_add_one q
  rw [abs_le, nearestEven]
  split
  next => constructor <;> linarith
  next =>
    split
    next => push_cast; constructor <;> linarith
    next => split <;> push_cast <;> constructor <;> linarith

theorem nearestEven_le : (nearestEven q : Rat) ≤ q + 1 / 2 := by
  have near := (abs_le.1 (abs_nearestEven_sub_le q)).2
  linarith

theorem le_nearestEven : q - 1 / 2 ≤ (nearestEven q : Rat) := by
  have near := (abs_le.1 (abs_nearestEven_sub_le q)).1
  linarith

/-- A value that is less than a half away from a whole number is rounded to it. -/
theorem nearestEven_eq_of_abs_lt {z : Int} (near : |q - z| < 1 / 2) : nearestEven q = z := by
  obtain ⟨below, above⟩ := abs_lt.1 near
  have least : (z : Rat) - 1 < nearestEven q := by
    have := le_nearestEven (q := q)
    linarith
  have most : (nearestEven q : Rat) < z + 1 := by
    have := nearestEven_le (q := q)
    linarith
  have least' : z - 1 < nearestEven q := by exact_mod_cast least
  have most' : nearestEven q < z + 1 := by exact_mod_cast most
  omega

@[simp] theorem nearestEven_intCast (z : Int) : nearestEven z = z :=
  nearestEven_eq_of_abs_lt (by simp)

/-- Rounding to whole numbers never goes back. -/
theorem nearestEven_mono (h : q ≤ r) : nearestEven q ≤ nearestEven r := by
  by_contra back
  have apart : (nearestEven r : Rat) + 1 ≤ nearestEven q := by exact_mod_cast not_le.1 back
  have above := nearestEven_le (q := q)
  have below := le_nearestEven (q := r)
  -- both are a half away on different sides, so that the values are the same
  have same : q = r := by linarith
  exact back (same ▸ le_rfl)

theorem nearestEven_nonneg (nonneg : 0 ≤ q) : 0 ≤ nearestEven q := by
  have mono : nearestEven ((0 : Int) : Rat) ≤ nearestEven q :=
    nearestEven_mono (by exact_mod_cast nonneg)
  rwa [nearestEven_intCast] at mono

/-- A half goes to zero. -/
theorem nearestEven_pos_iff : 0 < nearestEven q ↔ 1 / 2 < q := by
  constructor
  · intro pos
    by_contra small
    have half : nearestEven (1 / 2) = 0 := by decide +kernel
    exact absurd (half ▸ nearestEven_mono (not_lt.1 small)) (not_le.2 pos)
  · intro large
    have least := le_nearestEven (q := q)
    exact_mod_cast (by linarith : (0 : Rat) < nearestEven q)

theorem nearestEven_sub_half {z : Int} (even : z % 2 = 0) : nearestEven (z - 1 / 2) = z := by
  have low : ((z : Rat) - 1 / 2).floor = z - 1 := by
    show ⌊(z : Rat) - 1 / 2⌋ = z - 1
    rw [Int.floor_eq_iff]
    push_cast
    constructor <;> linarith
  have odd : ¬ (z - 1) % 2 = 0 := by omega
  have rest : (z : Rat) - 1 / 2 - ((z - 1 : Int) : Rat) = 1 / 2 := by
    push_cast
    ring
  simp only [nearestEven, low, rest, lt_irrefl, if_false, if_neg odd, sub_add_cancel]

/-- A value is rounded up to an even number from a half below it on. -/
theorem le_nearestEven_iff {z : Int} (even : z % 2 = 0) :
    z ≤ nearestEven q ↔ (z : Rat) - 1 / 2 ≤ q := by
  constructor
  · intro reached
    have above := nearestEven_le (q := q)
    have reached' : (z : Rat) ≤ nearestEven q := by exact_mod_cast reached
    linarith
  · intro near
    rw [← nearestEven_sub_half even]
    exact nearestEven_mono near

end NearestEven

/-! ## Steps -/

section Steps

variable {q r : Rat}

theorem zpow_log2_le {n : Nat} (nonzero : n ≠ 0) : (2 : Rat) ^ (n.log2 : Int) ≤ n := by
  rw [zpow_natCast]
  exact_mod_cast Nat.log2_self_le nonzero

theorem lt_zpow_log2 (n : Nat) : (n : Rat) < 2 ^ ((n.log2 : Int) + 1) := by
  exact_mod_cast Nat.lt_log2_self (n := n)

/-- The lengths of numerator and denominator leave two powers of two for a value. -/
theorem bounds_of_log2 (pos : 0 < q) :
    (2 : Rat) ^ ((q.num.natAbs.log2 : Int) - q.den.log2 - 1) < q ∧
      q < 2 ^ ((q.num.natAbs.log2 : Int) - q.den.log2 + 1) := by
  have numerator : q * q.den = q.num.natAbs := by
    rw [Rat.mul_den_eq_num, Nat.cast_natAbs, abs_of_pos (Rat.num_pos.2 pos)]
  have denPos : (0 : Rat) < q.den := by exact_mod_cast q.den_pos
  have nonzero : q.num.natAbs ≠ 0 := Int.natAbs_ne_zero.2 (Rat.num_pos.2 pos).ne'
  generalize a_eq : (q.num.natAbs.log2 : Int) = a
  generalize b_eq : (q.den.log2 : Int) = b
  constructor
  · refine lt_of_mul_lt_mul_right (a := (q.den : Rat)) ?_ denPos.le
    calc (2 : Rat) ^ (a - b - 1) * q.den
        < 2 ^ (a - b - 1) * 2 ^ (b + 1) :=
          mul_lt_mul_of_pos_left (b_eq ▸ lt_zpow_log2 q.den) (two_zpow_pos _)
      _ = 2 ^ a := by rw [← zpow_add₀ (by norm_num)]; congr 1; omega
      _ ≤ q.num.natAbs := a_eq ▸ zpow_log2_le nonzero
      _ = q * q.den := numerator.symm
  · refine lt_of_mul_lt_mul_right (a := (q.den : Rat)) ?_ denPos.le
    calc q * q.den = q.num.natAbs := numerator
      _ < 2 ^ (a + 1) := a_eq ▸ lt_zpow_log2 q.num.natAbs
      _ = 2 ^ (a - b + 1) * 2 ^ b := by rw [← zpow_add₀ (by norm_num)]; congr 1; omega
      _ ≤ 2 ^ (a - b + 1) * q.den :=
          mul_le_mul_of_nonneg_left (b_eq ▸ zpow_log2_le q.den_ne_zero) (two_zpow_pos _).le

/-- The exponent is the logarithm, rounded down. -/
theorem binaryExponent_eq_log (pos : 0 < q) : binaryExponent q = Int.log 2 q := by
  have log_eq {e : Int} (low : (2 : Rat) ^ e ≤ q) (high : q < 2 ^ (e + 1)) :
      e = Int.log 2 q := by
    have lower := (Int.zpow_le_iff_le_log (b := 2) (by decide) pos).1 (by exact_mod_cast low)
    have upper := (Int.lt_zpow_iff_log_lt (b := 2) (by decide) pos).1 (by exact_mod_cast high)
    omega
  obtain ⟨above, below⟩ := bounds_of_log2 pos
  rw [binaryExponent]
  split
  next reached => exact log_eq reached below
  next short =>
    refine log_eq above.le ?_
    rw [Int.sub_add_cancel]
    exact not_le.1 short

theorem two_zpow_binaryExponent_le (pos : 0 < q) : (2 : Rat) ^ binaryExponent q ≤ q := by
  rw [binaryExponent_eq_log pos]
  exact_mod_cast Int.zpow_log_le_self (b := 2) (by decide) pos

theorem lt_two_zpow_binaryExponent (pos : 0 < q) : q < (2 : Rat) ^ (binaryExponent q + 1) := by
  rw [binaryExponent_eq_log pos]
  exact_mod_cast Int.lt_zpow_succ_log_self (b := 2) (by decide) q

theorem binaryExponent_mono (pos : 0 < q) (h : q ≤ r) : binaryExponent q ≤ binaryExponent r := by
  rw [binaryExponent_eq_log pos, binaryExponent_eq_log (pos.trans_le h)]
  exact Int.log_mono_right pos h

/-- A value below a power of two has a smaller exponent. -/
theorem binaryExponent_lt {e : Int} (pos : 0 < q) (below : q < 2 ^ e) : binaryExponent q < e := by
  rw [binaryExponent_eq_log pos]
  exact (Int.lt_zpow_iff_log_lt (b := 2) (by decide) pos).1 (by exact_mod_cast below)

end Steps

namespace Format

variable {f : Format}

/-- The power of two behind all numbers of a format. -/
def limit (f : Format) : Rat := 2 ^ (f.coarsest + f.precision)

theorem twoTo_eq_zpow (bits : Nat) : (twoTo bits : Rat) = 2 ^ (bits : Int) := by
  rw [zpow_natCast]
  exact Nat.cast_pow 2 bits

theorem twoTo_pred_eq_zpow (f : Format) :
    (twoTo (f.precision - 1) : Rat) = 2 ^ ((f.precision : Int) - 1) := by
  have pos := f.precision_pos
  rw [twoTo_eq_zpow]
  congr 1
  omega

/-- A pair with enough digits is canonical, unless its value lies beyond the limit. -/
theorem canonical_iff_lt_limit {m : Nat} {e : Int} (fits : m < twoTo f.precision)
    (finest : f.finest ≤ e) (full : twoTo (f.precision - 1) ≤ m ∨ e = f.finest) :
    f.Canonical m e ↔ (m : Rat) * 2 ^ e < f.limit := by
  constructor
  · rintro ⟨_, _, coarsest, _⟩
    calc (m : Rat) * 2 ^ e
        < twoTo f.precision * 2 ^ e :=
          mul_lt_mul_of_pos_right (by exact_mod_cast fits) (two_zpow_pos e)
      _ = 2 ^ ((f.precision : Int) + e) := by
          rw [twoTo_eq_zpow, ← zpow_add₀ (by norm_num)]
      _ ≤ f.limit := zpow_le_zpow_right₀ (by norm_num) (by omega)
  · intro within
    refine ⟨fits, finest, ?_, full⟩
    by_contra beyond
    have notFinest : e ≠ f.finest := by
      have order := f.finest_le_coarsest
      omega
    have reached : f.limit ≤ m * 2 ^ e := by
      calc f.limit ≤ 2 ^ ((f.precision : Int) - 1 + e) :=
            zpow_le_zpow_right₀ (by norm_num) (by omega)
        _ = twoTo (f.precision - 1) * 2 ^ e := by
            rw [twoTo_pred_eq_zpow, ← zpow_add₀ (by norm_num)]
        _ ≤ m * 2 ^ e := by
            refine mul_le_mul_of_nonneg_right ?_ (two_zpow_pos e).le
            exact_mod_cast full.resolve_right notFinest
    exact absurd within (not_lt.2 reached)

end Format

namespace Binary

variable {f : Format} {q r : Rat}

/-! ## The rounded value -/

/-- The value that rounding gives as long as there is no largest number. -/
def rounded (f : Format) (q : Rat) : Rat :=
  nearestEven (q / 2 ^ stepExponent f q) * 2 ^ stepExponent f q

@[simp] theorem rounded_zero : rounded f 0 = 0 := by
  have whole : nearestEven 0 = 0 := nearestEven_intCast 0
  simp [rounded, whole]

/-- Rounding is off by at most half a step. -/
theorem abs_rounded_sub_le (q : Rat) : |rounded f q - q| ≤ 2 ^ stepExponent f q / 2 := by
  have step := two_zpow_pos (stepExponent f q)
  have scaled : rounded f q - q =
      (nearestEven (q / 2 ^ stepExponent f q) - q / 2 ^ stepExponent f q) *
        2 ^ stepExponent f q := by
    rw [rounded, sub_mul, div_mul_cancel₀ q step.ne']
  rw [scaled, abs_mul, abs_of_pos step]
  calc _ ≤ 1 / 2 * 2 ^ stepExponent f q :=
        mul_le_mul_of_nonneg_right (abs_nearestEven_sub_le _) step.le
    _ = _ := by ring

/-- A whole number of steps bounds what is rounded, if it bounds the value. -/
theorem rounded_le_of_le_steps {z : Int} (h : q ≤ z * 2 ^ stepExponent f q) :
    rounded f q ≤ z * 2 ^ stepExponent f q := by
  have step := two_zpow_pos (stepExponent f q)
  refine mul_le_mul_of_nonneg_right ?_ step.le
  rw [← div_le_iff₀ step] at h
  have mono := nearestEven_mono h
  rw [nearestEven_intCast] at mono
  exact_mod_cast mono

theorem le_rounded_of_steps_le {z : Int} (h : z * 2 ^ stepExponent f q ≤ q) :
    z * 2 ^ stepExponent f q ≤ rounded f q := by
  have step := two_zpow_pos (stepExponent f q)
  refine mul_le_mul_of_nonneg_right ?_ step.le
  rw [← le_div_iff₀ step] at h
  have mono := nearestEven_mono h
  rw [nearestEven_intCast] at mono
  exact_mod_cast mono

/-- A value is rounded up to an even number of steps from half a step below it on. -/
theorem even_steps_le_rounded_iff {z : Int} (even : z % 2 = 0) :
    z * 2 ^ stepExponent f q ≤ rounded f q ↔ (z - 1 / 2) * 2 ^ stepExponent f q ≤ q := by
  have step := two_zpow_pos (stepExponent f q)
  rw [rounded, mul_le_mul_iff_left₀ step, Int.cast_le, le_nearestEven_iff even, le_div_iff₀ step]

theorem rounded_nonneg (nonneg : 0 ≤ q) : 0 ≤ rounded f q := by
  have bound := le_rounded_of_steps_le (f := f) (q := q) (z := 0) (by simpa using nonneg)
  simpa using bound

/-- A value takes fewer steps than the precision can count. -/
theorem lt_two_zpow_step (nonneg : 0 ≤ q) : q < 2 ^ (f.precision + stepExponent f q) := by
  rcases nonneg.eq_or_lt with rfl | pos
  · exact two_zpow_pos _
  · refine (lt_two_zpow_binaryExponent pos).trans_le (zpow_le_zpow_right₀ (by norm_num) ?_)
    unfold stepExponent
    omega

/-- Above the finest step, a value takes steps enough for the full precision. -/
theorem two_zpow_step_le (pos : 0 < q) (coarse : f.finest < stepExponent f q) :
    2 ^ ((f.precision : Int) - 1 + stepExponent f q) ≤ q := by
  have digits : (f.precision : Int) - 1 + stepExponent f q ≤ binaryExponent q := by
    unfold stepExponent at coarse ⊢
    omega
  exact (zpow_le_zpow_right₀ (by norm_num) digits).trans (two_zpow_binaryExponent_le pos)

theorem rounded_le_two_zpow_step (nonneg : 0 ≤ q) :
    rounded f q ≤ 2 ^ (f.precision + stepExponent f q) := by
  have full : (2 : Rat) ^ (f.precision + stepExponent f q) =
      (twoTo f.precision : Int) * 2 ^ stepExponent f q := by
    rw [Int.cast_natCast, Format.twoTo_eq_zpow, ← zpow_add₀ (by norm_num)]
  rw [full]
  exact rounded_le_of_le_steps (full ▸ (lt_two_zpow_step nonneg).le)

theorem two_zpow_step_le_rounded (pos : 0 < q) (coarse : f.finest < stepExponent f q) :
    2 ^ ((f.precision : Int) - 1 + stepExponent f q) ≤ rounded f q := by
  have full : (2 : Rat) ^ ((f.precision : Int) - 1 + stepExponent f q) =
      (twoTo (f.precision - 1) : Int) * 2 ^ stepExponent f q := by
    rw [Int.cast_natCast, Format.twoTo_pred_eq_zpow, ← zpow_add₀ (by norm_num)]
  rw [full]
  exact le_rounded_of_steps_le (full ▸ two_zpow_step_le pos coarse)

theorem stepExponent_mono (pos : 0 < q) (h : q ≤ r) : stepExponent f q ≤ stepExponent f r := by
  have mono := binaryExponent_mono pos h
  unfold stepExponent
  omega

/-- **Rounding never goes back.** -/
theorem rounded_mono (nonneg : 0 ≤ q) (h : q ≤ r) : rounded f q ≤ rounded f r := by
  rcases nonneg.eq_or_lt with rfl | pos
  · rw [rounded_zero]
    exact rounded_nonneg h
  rcases (stepExponent_mono (f := f) pos h).eq_or_lt with same | coarser
  · have step := two_zpow_pos (stepExponent f r)
    have whole : nearestEven (q / 2 ^ stepExponent f r) ≤ nearestEven (r / 2 ^ stepExponent f r) :=
      nearestEven_mono (div_le_div_of_nonneg_right h step.le)
    rw [rounded, rounded, same]
    exact mul_le_mul_of_nonneg_right (by exact_mod_cast whole) step.le
  · -- a power of two lies between the two, and rounding does not get past it
    have finest : f.finest ≤ stepExponent f q := le_max_left _ _
    calc rounded f q ≤ 2 ^ (f.precision + stepExponent f q) := rounded_le_two_zpow_step nonneg
      _ ≤ 2 ^ ((f.precision : Int) - 1 + stepExponent f r) :=
          zpow_le_zpow_right₀ (by norm_num) (by omega)
      _ ≤ rounded f r := two_zpow_step_le_rounded (pos.trans_le h) (by omega)

/-- A value is above what rounding leaves alone, if it is rounded to more. -/
theorem lt_of_lt_rounded (nonneg : 0 ≤ q) (fixed : rounded f r = r) (above : r < rounded f q) :
    r < q := by
  by_contra below
  have mono := rounded_mono (f := f) nonneg (not_lt.1 below)
  rw [fixed] at mono
  exact absurd above (not_lt.2 mono)

/-- A step is in force where it takes the full precision, or where it is the finest. -/
theorem stepExponent_eq {k : Int} (pos : 0 < q) (finest : f.finest ≤ k)
    (most : q < 2 ^ ((f.precision : Int) + k))
    (least : 2 ^ ((f.precision : Int) - 1 + k) ≤ q ∨ k = f.finest) : stepExponent f q = k := by
  have below := binaryExponent_lt pos most
  unfold stepExponent
  rcases least with full | isFinest
  · have above : (f.precision : Int) - 1 + k ≤ binaryExponent q := by
      rw [binaryExponent_eq_log pos]
      exact (Int.zpow_le_iff_le_log (b := 2) (by decide) pos).1 (by exact_mod_cast full)
    omega
  · omega

/-- From a power of two up to the next one, a step is the last digit of the full precision. -/
theorem stepExponent_of_binade {e : Int} (low : 2 ^ e ≤ q) (below : q < 2 ^ (e + 1))
    (fine : f.finest ≤ e + 1 - f.precision) : stepExponent f q = e + 1 - f.precision := by
  have whole : (f.precision : Int) + (e + 1 - f.precision) = e + 1 := by omega
  have front : (f.precision : Int) - 1 + (e + 1 - f.precision) = e := by omega
  refine stepExponent_eq ((two_zpow_pos e).trans_le low) fine ?_ (.inl ?_)
  · rwa [whole]
  · rwa [front]

/-- A value whose steps are halves or finer is rounded up to a whole number from half a step below it
on. -/
theorem natCast_le_rounded_iff {n : Nat} {e : Int} (low : 2 ^ e ≤ q) (below : q < 2 ^ (e + 1))
    (fine : f.finest ≤ e + 1 - f.precision) (half : e + 1 < f.precision) :
    (n : Rat) ≤ rounded f q ↔ (n : Rat) - 2 ^ (e - f.precision) ≤ q := by
  obtain ⟨j, places⟩ := Int.eq_ofNat_of_zero_le (show 0 ≤ (f.precision : Int) - 2 - e by omega)
  have step : stepExponent f q = -((j + 1 : Nat) : Int) := by
    rw [stepExponent_of_binade low below fine]
    omega
  have even : ((n * 2 ^ (j + 1) : Nat) : Int) % 2 = 0 := by
    rw [pow_succ, ← mul_assoc]
    omega
  have count : (((n * 2 ^ (j + 1) : Nat) : Int) : Rat) * 2 ^ (-((j + 1 : Nat) : Int)) = n := by
    rw [zpow_neg, zpow_natCast]
    push_cast
    exact mul_inv_cancel_right₀ (by positivity) _
  have part : (1 : Rat) / 2 * 2 ^ (-((j + 1 : Nat) : Int)) = 2 ^ (e - f.precision) := by
    have exponent : e - (f.precision : Int) = -((j + 1 : Nat) : Int) - 1 := by omega
    rw [exponent, zpow_sub_one₀ (by norm_num)]
    ring
  have reached := even_steps_le_rounded_iff (f := f) (q := q) even
  rwa [step, sub_mul, count, part] at reached

/-- A canonical pair has the step of its value. -/
theorem stepExponent_of_canonical {m : Nat} {e : Int} (canonical : f.Canonical m e)
    (nonzero : m ≠ 0) : stepExponent f (m * 2 ^ e) = e := by
  obtain ⟨fits, finest, _, full⟩ := canonical
  have pos : (0 : Rat) < m * 2 ^ e :=
    mul_pos (by exact_mod_cast Nat.pos_of_ne_zero nonzero) (two_zpow_pos e)
  refine stepExponent_eq pos finest ?_ (full.imp_left fun full => ?_)
  · rw [zpow_add₀ (by norm_num), ← Format.twoTo_eq_zpow]
    exact mul_lt_mul_of_pos_right (by exact_mod_cast fits) (two_zpow_pos e)
  · rw [zpow_add₀ (by norm_num), ← Format.twoTo_pred_eq_zpow]
    exact mul_le_mul_of_nonneg_right (by exact_mod_cast full) (two_zpow_pos e).le

/-- Rounding leaves whole numbers of a step alone, if the step in force is as fine. -/
theorem rounded_of_steps {z e : Int} (fine : stepExponent f (z * 2 ^ e) ≤ e) :
    rounded f (z * 2 ^ e) = z * 2 ^ e := by
  generalize step_eq : stepExponent f (z * 2 ^ e) = k at fine
  have whole : (z : Rat) * 2 ^ e = ((z * 2 ^ (e - k).toNat : Int) : Rat) * 2 ^ k := by
    push_cast
    rw [mul_assoc, ← zpow_natCast, ← zpow_add₀ (by norm_num)]
    congr 2
    omega
  rw [rounded, step_eq, whole, mul_div_cancel_right₀ _ (two_zpow_pos k).ne', nearestEven_intCast]

/-- **The values of the format are left alone.** -/
theorem rounded_of_canonical {m : Nat} {e : Int} (canonical : f.Canonical m e) :
    rounded f (m * 2 ^ e) = m * 2 ^ e := by
  by_cases zero : m = 0
  · simp [zero]
  · have same := rounded_of_steps (z := m) (stepExponent_of_canonical canonical zero).le
    simpa using same

/-- Below a power of two, the step is as fine as the precision makes it. -/
theorem stepExponent_le {e : Int} (pos : 0 < q) (below : q < 2 ^ e)
    (fine : f.finest ≤ e - f.precision) : stepExponent f q ≤ e - f.precision := by
  have exponent := binaryExponent_lt pos below
  unfold stepExponent
  omega

/-- Below a power of two, rounding is off by at most half the step there. -/
theorem abs_rounded_sub_le_of_lt {e : Int} (nonneg : 0 ≤ q) (below : q < 2 ^ e)
    (fine : f.finest ≤ e - f.precision) : |rounded f q - q| ≤ 2 ^ (e - f.precision) / 2 := by
  rcases nonneg.eq_or_lt with rfl | pos
  · rw [rounded_zero, sub_zero, abs_zero]
    exact (half_pos (two_zpow_pos _)).le
  · refine (abs_rounded_sub_le q).trans ?_
    refine div_le_div_of_nonneg_right ?_ (by norm_num)
    exact zpow_le_zpow_right₀ (by norm_num) (stepExponent_le pos below fine)

/-- From the smallest significand of full precision on, the error is relative. -/
theorem abs_rounded_sub_le_mul (full : 2 ^ (f.finest + f.precision - 1) ≤ q) :
    |rounded f q - q| ≤ q / 2 ^ f.precision := by
  have pos : 0 < q := (two_zpow_pos _).trans_le full
  have exponent : f.finest + f.precision - 1 < binaryExponent q + 1 :=
    (zpow_lt_zpow_iff_right₀ (by norm_num)).1 (full.trans_lt (lt_two_zpow_binaryExponent pos))
  have step : stepExponent f q = binaryExponent q - f.precision + 1 := by
    unfold stepExponent
    omega
  calc |rounded f q - q| ≤ 2 ^ stepExponent f q / 2 := abs_rounded_sub_le q
    _ = 2 ^ binaryExponent q / 2 ^ f.precision := by
        rw [step, zpow_add_one₀ (by norm_num), zpow_sub₀ (by norm_num), zpow_natCast]
        ring
    _ ≤ q / 2 ^ f.precision :=
        div_le_div_of_nonneg_right (two_zpow_binaryExponent_le pos) (by positivity)

/-- Whole numbers that the precision can count are left alone. -/
theorem rounded_natCast {n : Nat} (few : n < twoTo f.precision) (fine : f.finest ≤ 0) :
    rounded f n = n := by
  by_cases zero : n = 0
  · simp [zero]
  · have below : (n : Rat) < 2 ^ (f.precision : Int) := by
      rw [← Format.twoTo_eq_zpow]
      exact_mod_cast few
    have step : stepExponent f n ≤ 0 := by
      have bound := stepExponent_le (f := f) (by exact_mod_cast Nat.pos_of_ne_zero zero) below
        (by simpa using fine)
      simpa using bound
    have same := rounded_of_steps (f := f) (z := n) (e := 0) (by simpa using step)
    simpa using same

theorem rounded_one (fine : f.finest ≤ 0) : rounded f 1 = 1 := by
  have whole := rounded_natCast (f := f) (Nat.one_lt_two_pow f.precision_pos.ne') fine
  rwa [Nat.cast_one] at whole

/-! ## The number with the rounded value -/

/-- The significand that rounding counts. -/
theorem cast_toNat_nearestEven (nonneg : 0 ≤ q) :
    (((nearestEven (q / 2 ^ stepExponent f q)).toNat : Nat) : Rat) * 2 ^ stepExponent f q =
      rounded f q := by
  have whole := nearestEven_nonneg (div_nonneg nonneg (two_zpow_pos (stepExponent f q)).le)
  rw [rounded, ← Int.cast_natCast, Int.toNat_of_nonneg whole]

/-- What rounding counts has the full precision or the finest step, and fits but for a carry. -/
theorem significand_bounds {m : Nat} (nonneg : 0 ≤ q)
    (value : (m : Rat) * 2 ^ stepExponent f q = rounded f q) (nonzero : m ≠ 0) :
    m ≤ twoTo f.precision ∧ (twoTo (f.precision - 1) ≤ m ∨ stepExponent f q = f.finest) := by
  have step := two_zpow_pos (stepExponent f q)
  constructor
  · have most := rounded_le_two_zpow_step (f := f) nonneg
    rw [← value, zpow_add₀ (by norm_num), ← Format.twoTo_eq_zpow] at most
    exact_mod_cast le_of_mul_le_mul_right most step
  · rcases (le_max_left f.finest _ : f.finest ≤ stepExponent f q).eq_or_lt with same | coarse
    · exact .inr same.symm
    · have pos : 0 < q := by
        refine lt_of_le_of_ne nonneg fun zero => nonzero ?_
        subst zero
        rw [rounded_zero] at value
        exact_mod_cast (mul_eq_zero.1 value).resolve_right step.ne'
      have least := two_zpow_step_le_rounded pos coarse
      rw [← value, zpow_add₀ (by norm_num), ← Format.twoTo_pred_eq_zpow] at least
      exact .inl (by exact_mod_cast le_of_mul_le_mul_right least step)

/-- A number is made from a pair with the rounded value. -/
theorem exists_ofMagnitude_eq (f : Format) (negative : Bool) (nonneg : 0 ≤ q) :
    ∃ (m : Nat) (e : Int), (m : Rat) * 2 ^ e = rounded f q ∧
      (f.Canonical m e ↔ rounded f q < f.limit) ∧
      ofMagnitude negative q =
        if canonical : f.Canonical m e then finite negative m e canonical
        else infinite negative := by
  have value := cast_toNat_nearestEven (f := f) nonneg
  have finest : f.finest ≤ stepExponent f q := le_max_left _ _
  have bounds := significand_bounds nonneg value
  unfold ofMagnitude
  dsimp only
  generalize (nearestEven (q / 2 ^ stepExponent f q)).toNat = m at value bounds ⊢
  generalize stepExponent f q = e at value finest bounds ⊢
  by_cases zero : m = 0
  · have nothing : (0 : Rat) = rounded f q := by rw [← value, zero, Nat.cast_zero, zero_mul]
    have canonical := f.canonical_zero
    refine ⟨0, f.finest, by simpa using nothing, ?_, ?_⟩
    · rw [← nothing]
      exact iff_of_true canonical (two_zpow_pos _)
    · rw [if_pos zero, dif_pos canonical]
      rfl
  · obtain ⟨few, full⟩ := bounds zero
    rw [if_neg zero]
    by_cases carried : m = twoTo f.precision
    · have same : (twoTo (f.precision - 1) : Rat) * 2 ^ (e + 1) = rounded f q := by
        rw [← value, carried, Format.twoTo_pred_eq_zpow, Format.twoTo_eq_zpow,
          ← zpow_add₀ (by norm_num), ← zpow_add₀ (by norm_num)]
        congr 1
        omega
      have fits : twoTo (f.precision - 1) < twoTo f.precision :=
        Nat.pow_lt_pow_right (by decide) (Nat.sub_lt f.precision_pos Nat.one_pos)
      refine ⟨twoTo (f.precision - 1), e + 1, same, ?_, ?_⟩
      · rw [Format.canonical_iff_lt_limit fits (by omega) (.inl le_rfl), same]
      · simp [carried]
    · refine ⟨m, e, value, ?_, ?_⟩
      · rw [Format.canonical_iff_lt_limit (by omega) finest full, value]
      · simp [carried]

/-- **Rounding gives the number with the rounded value**, as long as it lies below the limit. -/
theorem ofMagnitude_of_lt (negative : Bool) (nonneg : 0 ≤ q) (within : rounded f q < f.limit) :
    ∃ m e canonical, ofMagnitude negative q = (finite negative m e canonical : Binary f) ∧
      (m : Rat) * 2 ^ e = rounded f q := by
  obtain ⟨m, e, value, isCanonical, made⟩ := exists_ofMagnitude_eq f negative nonneg
  exact ⟨m, e, isCanonical.2 within, by rw [made, dif_pos], value⟩

/-- From the limit on, rounding gives an infinity. -/
theorem ofMagnitude_of_le (negative : Bool) (nonneg : 0 ≤ q) (beyond : f.limit ≤ rounded f q) :
    (ofMagnitude negative q : Binary f) = infinite negative := by
  obtain ⟨m, e, _, isCanonical, made⟩ := exists_ofMagnitude_eq f negative nonneg
  rw [made, dif_neg (isCanonical.not.2 (not_lt.2 beyond))]

theorem isFinite_ofMagnitude_iff (negative : Bool) (nonneg : 0 ≤ q) :
    (ofMagnitude negative q : Binary f).isFinite = true ↔ rounded f q < f.limit := by
  constructor
  · intro isFinite
    by_contra beyond
    rw [ofMagnitude_of_le negative nonneg (not_lt.1 beyond)] at isFinite
    cases isFinite
  · intro within
    obtain ⟨m, e, canonical, made, _⟩ := ofMagnitude_of_lt negative nonneg within
    rw [made]
    rfl

/-- The value of a number that rounding gives. -/
theorem toRat_ofMagnitude {negative : Bool} (nonneg : 0 ≤ q)
    (isFinite : (ofMagnitude negative q : Binary f).isFinite = true) :
    (ofMagnitude negative q : Binary f).toRat =
      if negative then -rounded f q else rounded f q := by
  obtain ⟨m, e, canonical, made, value⟩ :=
    ofMagnitude_of_lt negative nonneg ((isFinite_ofMagnitude_iff negative nonneg).1 isFinite)
  rw [made, toRat_finite, value]

end Binary

end Slidecast.Number
