import Slidecast.Proofs.Number.Order
import Mathlib.Algebra.Order.Field.Power
import Mathlib.Algebra.Order.Field.Rat
import Mathlib.Tactic.Positivity
import Mathlib.Tactic.Ring

/-!
# One number for each value

A value has one canonical pair of significand and exponent (`Format.Canonical.unique`).  So two
finite numbers of the same value are the same number, unless they are the two zeros
(`Binary.eq_of_toRat_eq`), and a row of numbers that goes up is told by its members
(`Binary.eq_of_increasing`).
-/

set_option autoImplicit false

namespace Slidecast.Number

theorem two_zpow_pos (e : Int) : (0 : Rat) < 2 ^ e := by positivity

/-! ## Canonical pairs -/

namespace Format.Canonical

variable {f : Format} {m n : Nat} {e k : Int}

/-- A pair with a coarser step stands for a larger value: its significand has full precision. -/
theorem lt_of_exponent_lt (first : f.Canonical m e) (second : f.Canonical n k) (coarser : e < k) :
    (m : Rat) * 2 ^ e < n * 2 ^ k := by
  obtain ⟨fits, finest, _, _⟩ := first
  have full : twoTo (f.precision - 1) ≤ n := by
    rcases second.2.2.2 with full | finer
    · exact full
    · exact absurd (finer ▸ coarser) (not_lt.2 finest)
  have double : twoTo f.precision = twoTo (f.precision - 1) * 2 := by
    have pos := f.precision_pos
    show 2 ^ f.precision = 2 ^ (f.precision - 1) * 2
    rw [← pow_succ]
    congr 1
    omega
  have less : (m : Rat) < n * 2 := by
    have : m < n * 2 := by omega
    exact_mod_cast this
  calc (m : Rat) * 2 ^ e
      < n * 2 * 2 ^ e := mul_lt_mul_of_pos_right less (two_zpow_pos e)
    _ = n * 2 ^ (e + 1) := by rw [zpow_add_one₀ (by norm_num)]; ring
    _ ≤ n * 2 ^ k := by
        refine mul_le_mul_of_nonneg_left ?_ (Nat.cast_nonneg n)
        exact zpow_le_zpow_right₀ (by norm_num) coarser

/-- **A value has one canonical pair.** -/
theorem unique (first : f.Canonical m e) (second : f.Canonical n k)
    (same : (m : Rat) * 2 ^ e = n * 2 ^ k) : m = n ∧ e = k := by
  rcases lt_trichotomy e k with finer | equal | coarser
  · exact absurd same (ne_of_lt (lt_of_exponent_lt first second finer))
  · subst equal
    exact ⟨by exact_mod_cast mul_right_cancel₀ (ne_of_gt (two_zpow_pos e)) same, rfl⟩
  · exact absurd same (ne_of_gt (lt_of_exponent_lt second first coarser))

end Format.Canonical

/-! ## Numbers and values -/

namespace Binary

variable {f : Format} {x y : Binary f}

/-- A finite number is negative, or its value is its distance from zero. -/
theorem toRat_finite (negative : Bool) (m : Nat) (e : Int) (canonical : f.Canonical m e) :
    (finite negative m e canonical).toRat =
      if negative then -((m : Rat) * 2 ^ e) else (m : Rat) * 2 ^ e := rfl

theorem isZero_iff_toRat_eq_zero (hx : x.isFinite = true) : x.isZero = true ↔ x.toRat = 0 := by
  cases x with
  | nan => cases hx
  | infinite negative => cases hx
  | finite negative m e canonical =>
      have step := ne_of_gt (two_zpow_pos e)
      rw [toRat_finite]
      cases negative <;> simp [isZero, step]

/-- **Numbers of one value are one number**, unless the value is zero. -/
theorem eq_of_toRat_eq (hx : x.isFinite = true) (hy : y.isFinite = true)
    (nonzero : x.toRat ≠ 0) (same : x.toRat = y.toRat) : x = y := by
  cases x with
  | nan => cases hx
  | infinite negative => cases hx
  | finite a m e canonical =>
      cases y with
      | nan => cases hy
      | infinite negative => cases hy
      | finite b n k canonical' =>
          have first : (0 : Rat) ≤ m * 2 ^ e :=
            mul_nonneg (Nat.cast_nonneg m) (two_zpow_pos e).le
          have second : (0 : Rat) ≤ n * 2 ^ k :=
            mul_nonneg (Nat.cast_nonneg n) (two_zpow_pos k).le
          rw [toRat_finite] at nonzero
          rw [toRat_finite, toRat_finite] at same
          have signs : a = b ∧ (m : Rat) * 2 ^ e = n * 2 ^ k := by
            cases a <;> cases b <;> grind
          obtain ⟨rfl, values⟩ := signs
          obtain ⟨rfl, rfl⟩ := canonical.unique canonical' values
          rfl

/-! ## Rows that go up -/

/-- A row that goes up from each number to the next is told by its members. -/
theorem eq_of_increasing {xs ys : List (Binary f)} (hxs : xs.Pairwise (· < ·))
    (hys : ys.Pairwise (· < ·)) (same : ∀ x, x ∈ xs ↔ x ∈ ys) : xs = ys := by
  have apart {zs : List (Binary f)} (hzs : zs.Pairwise (· < ·)) : zs.Nodup :=
    hzs.imp fun {x y} less (equal : x = y) => lt_asymm (equal ▸ less) (equal ▸ less)
  refine List.Perm.eq_of_pairwise (fun x y _ _ less more => ?_) hxs hys
    ((List.perm_ext_iff_of_nodup (apart hxs) (apart hys)).2 same)
  exact absurd more (lt_asymm less)

end Binary

end Slidecast.Number
