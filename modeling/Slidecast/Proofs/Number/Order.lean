import Slidecast.Number.Arithmetic
import Mathlib.Data.Rat.Defs
import Mathlib.Data.Prod.Lex
import Mathlib.Algebra.Order.Ring.Rat

/-!
# The order of finite numbers

Finite numbers compare as their exact values do, so comparison by value is a total preorder on
them: the two zeros are the only different numbers that are equal by value.

Sorting with `Binary.sortsBefore` gives a row that never goes back by value
(`pairwise_le_mergeSort`), provided that all numbers are finite; "not a number" compares with
nothing, and the sort promises nothing about it.
-/

set_option autoImplicit false

namespace Slidecast.Number.Binary

variable {f : Format} {x y z : Binary f}

/-! ## Comparison is comparison of values -/

theorem lt_iff_toRat_lt (hx : x.isFinite = true) (hy : y.isFinite = true) :
    x < y ↔ x.toRat < y.toRat := by
  cases x with
  | nan => cases hx
  | infinite negative => cases hx
  | finite a m e h =>
      cases y with
      | nan => cases hy
      | infinite negative => cases hy
      | finite b n k h' =>
          show (compare? _ _ == some .lt) = true ↔ _
          simp only [compare?]
          split
          next less => simp [less]
          next notLess =>
            split
            next more => simp [notLess]
            next notMore => simp [notLess]

theorem equals_iff_toRat_eq (hx : x.isFinite = true) (hy : y.isFinite = true) :
    x.equals y = true ↔ x.toRat = y.toRat := by
  cases x with
  | nan => cases hx
  | infinite negative => cases hx
  | finite a m e h =>
      cases y with
      | nan => cases hy
      | infinite negative => cases hy
      | finite b n k h' =>
          simp only [equals, compare?]
          split
          next less => simp [ne_of_lt less]
          next notLess =>
            split
            next more => simp [ne_of_gt more]
            next notMore => simp [le_antisymm (not_lt.1 notMore) (not_lt.1 notLess)]

theorem le_iff_toRat_le (hx : x.isFinite = true) (hy : y.isFinite = true) :
    x ≤ y ↔ x.toRat ≤ y.toRat := by
  show (x.below y || x.equals y) = true ↔ _
  rw [Bool.or_eq_true, equals_iff_toRat_eq hx hy, le_iff_lt_or_eq]
  exact or_congr_left (lt_iff_toRat_lt hx hy)

theorem not_lt_iff_le (hx : x.isFinite = true) (hy : y.isFinite = true) : ¬ x < y ↔ y ≤ x := by
  rw [lt_iff_toRat_lt hx hy, le_iff_toRat_le hy hx, not_lt]

theorem le_refl_of_isFinite (hx : x.isFinite = true) : x ≤ x :=
  (le_iff_toRat_le hx hx).2 le_rfl

theorem le_of_lt (less : x < y) : x ≤ y := by
  show (x.below y || x.equals y) = true
  rw [Bool.or_eq_true]
  exact .inl less

/-! ## The infinities -/

theorem isNaN_eq_false_of_le (order : x ≤ y) : x.isNaN = false ∧ y.isNaN = false := by
  change (x.below y || x.equals y) = true at order
  cases x with
  | nan => simp [below, equals, compare?] at order
  | infinite negative | finite a m e h =>
      cases y with
      | nan => simp [below, equals, compare?] at order
      | infinite negative' | finite b n k h' => exact ⟨rfl, rfl⟩

/-- The negative infinity is the least of all numbers. -/
theorem bottom_le (number : y.isNaN = false) : infinite true ≤ y := by
  show ((infinite true).below y || (infinite true).equals y) = true
  cases y with
  | nan => cases number
  | infinite negative => cases negative <;> rfl
  | finite b n k h => rfl

/-- The positive infinity is the greatest of all numbers. -/
theorem le_top (number : x.isNaN = false) : x ≤ infinite false := by
  show (x.below (infinite false) || x.equals (infinite false)) = true
  cases x with
  | nan => cases number
  | infinite negative => cases negative <;> rfl
  | finite a m e h => rfl

theorem not_lt_bottom (x : Binary f) : ¬ x < infinite true := by
  show ¬ x.below (infinite true) = true
  cases x with
  | nan => exact Bool.false_ne_true
  | infinite negative => cases negative <;> exact Bool.false_ne_true
  | finite a m e h => exact Bool.false_ne_true

theorem not_top_lt (y : Binary f) : ¬ infinite false < y := by
  show ¬ (infinite false).below y = true
  cases y with
  | nan => exact Bool.false_ne_true
  | infinite negative => cases negative <;> exact Bool.false_ne_true
  | finite b n k h => exact Bool.false_ne_true

/-- Numbers in order: one of them is the infinity on its side, or both are finite and their values
are in order. -/
theorem le_cases (order : x ≤ y) :
    x = .infinite true ∨ y = .infinite false ∨
      (x.isFinite = true ∧ y.isFinite = true ∧ x.toRat ≤ y.toRat) := by
  have compared := order
  change (x.below y || x.equals y) = true at compared
  cases x with
  | nan => cases (isNaN_eq_false_of_le order).1
  | infinite negative =>
      cases negative with
      | true => exact .inl rfl
      | false =>
          cases y with
          | nan => cases (isNaN_eq_false_of_le order).2
          | infinite negative' =>
              cases negative' with
              | true => simp [below, equals, compare?] at compared
              | false => exact .inr (.inl rfl)
          | finite b n k h' => simp [below, equals, compare?] at compared
  | finite a m e h =>
      cases y with
      | nan => cases (isNaN_eq_false_of_le order).2
      | infinite negative =>
          cases negative with
          | true => simp [below, equals, compare?] at compared
          | false => exact .inr (.inl rfl)
      | finite b n k h' => exact .inr (.inr ⟨rfl, rfl, (le_iff_toRat_le rfl rfl).1 order⟩)

/-- An order on finite numbers and infinities alike. -/
theorem le_trans (first : x ≤ y) (second : y ≤ z) : x ≤ z := by
  have number := (isNaN_eq_false_of_le second).2
  rcases le_cases first with rfl | rfl | ⟨hx, hy, below⟩
  · exact bottom_le number
  · rcases le_cases second with opposite | rfl | ⟨hy, _⟩
    · cases opposite
    · exact first
    · cases hy
  · rcases le_cases second with rfl | rfl | ⟨_, hz, above⟩
    · cases hy
    · exact le_top (isNaN_eq_false_of_le first).1
    · exact (le_iff_toRat_le hx hz).2 (below.trans above)

/-- Of two numbers only one is below the other. -/
theorem lt_asymm (less : x < y) : ¬ y < x := by
  intro more
  rcases le_cases (le_of_lt less) with rfl | rfl | ⟨hx, hy, _⟩
  · exact not_lt_bottom y more
  · exact not_top_lt x more
  · rw [lt_iff_toRat_lt hx hy] at less
    rw [lt_iff_toRat_lt hy hx] at more
    exact absurd more (not_lt.2 less.le)

theorem isNaN_eq_false (hx : x.isFinite = true) : x.isNaN = false := by
  cases x with
  | nan => cases hx
  | infinite negative => rfl
  | finite a m e h => rfl

/-- What lies between two finite numbers is finite. -/
theorem isFinite_of_between (hx : x.isFinite = true) (hz : z.isFinite = true) (first : x ≤ y)
    (second : y ≤ z) : y.isFinite = true := by
  rcases le_cases first with rfl | rfl | ⟨_, hy, _⟩
  · cases hx
  · rcases le_cases second with opposite | rfl | ⟨hy, _⟩
    · cases opposite
    · cases hz
    · cases hy
  · exact hy

@[simp] theorem isFinite_zero (negative : Bool) : (zero negative : Binary f).isFinite = true := rfl

@[simp] theorem toRat_zero (negative : Bool) : (zero negative : Binary f).toRat = 0 := by
  cases negative <;> simp [zero, toRat]

/-- The literal `0` is the positive zero. -/
theorem ofNat_zero : (ofNat 0 : Binary f) = zero false := by
  have floor : Rat.floor 0 = 0 := rfl
  have nearest : nearestEven 0 = 0 := by simp [nearestEven, floor]
  simp [ofNat, ofMagnitude, nearest]

@[simp] theorem isFinite_literal_zero : (0 : Binary f).isFinite = true :=
  (congrArg isFinite (ofNat_zero (f := f))).trans rfl

@[simp] theorem toRat_literal_zero : (0 : Binary f).toRat = 0 :=
  (congrArg toRat (ofNat_zero (f := f))).trans (toRat_zero false)

/-! ## The larger and the smaller of two numbers -/

/-- A number is one of a row of numbers, and none of them is larger. -/
def IsLargest (x : Binary f) (xs : List (Binary f)) : Prop := x ∈ xs ∧ ∀ y ∈ xs, y ≤ x

theorem toRat_le_of_sortsBefore (hx : x.isFinite = true) (hy : y.isFinite = true)
    (before : x.sortsBefore y = true) : x.toRat ≤ y.toRat := by
  rw [sortsBefore, Bool.or_eq_true, Bool.and_eq_true] at before
  rcases before with less | ⟨equal, _⟩
  · exact ((lt_iff_toRat_lt hx hy).1 less).le
  · exact le_of_eq ((equals_iff_toRat_eq hx hy).1 equal)

theorem toRat_le_of_not_sortsBefore (hx : x.isFinite = true) (hy : y.isFinite = true)
    (notBefore : ¬ x.sortsBefore y = true) : y.toRat ≤ x.toRat := by
  rw [sortsBefore, Bool.or_eq_true, not_or] at notBefore
  exact (not_lt.1 fun less => notBefore.1 ((lt_iff_toRat_lt hx hy).2 less))

theorem larger_eq_or (x y : Binary f) : x.larger y = x ∨ x.larger y = y := by
  unfold larger
  split
  · exact .inr rfl
  · split
    · exact .inl rfl
    · split
      · exact .inr rfl
      · exact .inl rfl

theorem smaller_eq_or (x y : Binary f) : x.smaller y = x ∨ x.smaller y = y := by
  unfold smaller
  split
  · exact .inr rfl
  · split
    · exact .inl rfl
    · split
      · exact .inl rfl
      · exact .inr rfl

theorem isFinite_larger (hx : x.isFinite = true) (hy : y.isFinite = true) :
    (x.larger y).isFinite = true := by
  rcases larger_eq_or x y with same | same <;> rwa [same]

theorem isFinite_smaller (hx : x.isFinite = true) (hy : y.isFinite = true) :
    (x.smaller y).isFinite = true := by
  rcases smaller_eq_or x y with same | same <;> rwa [same]

theorem toRat_larger (hx : x.isFinite = true) (hy : y.isFinite = true) :
    (x.larger y).toRat = max x.toRat y.toRat := by
  rw [larger, isNaN_eq_false hx, isNaN_eq_false hy]
  by_cases before : x.sortsBefore y = true
  · simp [before, max_eq_right (toRat_le_of_sortsBefore hx hy before)]
  · simp [before, max_eq_left (toRat_le_of_not_sortsBefore hx hy before)]

theorem toRat_smaller (hx : x.isFinite = true) (hy : y.isFinite = true) :
    (x.smaller y).toRat = min x.toRat y.toRat := by
  rw [smaller, isNaN_eq_false hx, isNaN_eq_false hy]
  by_cases before : x.sortsBefore y = true
  · simp [before, min_eq_left (toRat_le_of_sortsBefore hx hy before)]
  · simp [before, min_eq_right (toRat_le_of_not_sortsBefore hx hy before)]

/-! ## Sorting -/

/-- What decides the place of a finite number in a sorted row: its value, and of two zeros, which
one it is. -/
def sortKey (x : Binary f) : Rat ×ₗ Bool := toLex (x.toRat, !x.isNegative)

theorem sortsBefore_eq_decide_sortKey (hx : x.isFinite = true) (hy : y.isFinite = true) :
    x.sortsBefore y = decide (x.sortKey ≤ y.sortKey) := by
  rw [Bool.eq_iff_iff, decide_eq_true_eq, sortKey, sortKey, Prod.Lex.toLex_le_toLex]
  rw [sortsBefore, Bool.or_eq_true, Bool.and_eq_true, equals_iff_toRat_eq hx hy]
  refine or_congr (lt_iff_toRat_lt hx hy) (and_congr_right fun _ => ?_)
  cases x.isNegative <;> cases y.isNegative <;> simp

/-- **A sorted row of finite numbers never goes back.** -/
theorem pairwise_le_mergeSort {xs : List (Binary f)} (finite : ∀ x ∈ xs, x.isFinite = true) :
    (xs.mergeSort sortsBefore).Pairwise fun x y => x.toRat ≤ y.toRat := by
  have byKey : xs.mergeSort sortsBefore =
      xs.mergeSort fun x y => decide (x.sortKey ≤ y.sortKey) := by
    have mapped := List.map_mergeSort (r := sortsBefore) (f := id)
      (s := fun x y : Binary f => decide (x.sortKey ≤ y.sortKey)) (l := xs)
      fun x hx y hy => sortsBefore_eq_decide_sortKey (finite x hx) (finite y hy)
    simpa using mapped
  have sorted : (xs.mergeSort fun x y => decide (x.sortKey ≤ y.sortKey)).Pairwise
      fun x y => decide (x.sortKey ≤ y.sortKey) = true := by
    refine List.pairwise_mergeSort (fun _ _ _ first second => ?_) (fun x y => ?_) xs
    · rw [decide_eq_true_eq] at *
      exact first.trans second
    · rw [Bool.or_eq_true, decide_eq_true_eq, decide_eq_true_eq]
      exact le_total _ _
  rw [byKey]
  refine sorted.imp fun {x y} before => ?_
  rw [decide_eq_true_eq, sortKey, sortKey, Prod.Lex.toLex_le_toLex] at before
  rcases before with less | ⟨equal, _⟩
  · exact less.le
  · exact le_of_eq equal

end Slidecast.Number.Binary
