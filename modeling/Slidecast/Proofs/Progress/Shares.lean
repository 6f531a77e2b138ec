import Mathlib.Data.List.Perm.Basic
import Slidecast.Progress.Stage
import Slidecast.Proofs.Number.Arithmetic
import Slidecast.Proofs.Number.Order

/-!
# How much of a job is done

Shares are whole numbers, so that their sum is exact, whatever the order in which they are summed
(`percentDone_perm`).  What is shown is the sum in percent of the whole, which is rounded twice: it
is nothing at the beginning and a hundred when all stages are done, grows with the stages, and is
at most a hundred-thousandth away from the exact share (`abs_toRat_percentDone_sub_le`).
-/

set_option autoImplicit false

namespace Slidecast.Progress

open Number Binary

/-! ## Sums of shares -/

/-- The shares of some stages in the whole, in percent. -/
def shareOf (stages : List Stage) : Nat :=
  stages.foldr (fun stage total => stage.share + total) 0

@[simp] theorem shareOf_nil : shareOf [] = 0 := rfl

@[simp] theorem shareOf_cons (stage : Stage) (stages : List Stage) :
    shareOf (stage :: stages) = stage.share + shareOf stages := rfl

@[simp] theorem shareOf_append (front back : List Stage) :
    shareOf (front ++ back) = shareOf front + shareOf back := by
  induction front with
  | nil => simp
  | cons stage front ih =>
      simp only [List.cons_append, shareOf_cons, ih]
      omega

theorem shareOf_perm {stages others : List Stage} (same : stages.Perm others) :
    shareOf stages = shareOf others := by
  induction same with
  | nil => rfl
  | cons stage _ ih => simp [ih]
  | swap stage other rest =>
      simp only [shareOf_cons]
      omega
  | trans _ _ first second => exact first.trans second

theorem share_pos (stage : Stage) : 0 < stage.share := by cases stage <;> decide

theorem shareOf_eq_zero_iff {stages : List Stage} : shareOf stages = 0 ↔ stages = [] := by
  cases stages with
  | nil => simp
  | cons stage rest =>
      have pos := share_pos stage
      simp only [shareOf_cons, reduceCtorEq, iff_false]
      omega

theorem shareOf_le_of_sublist {stages others : List Stage} (part : stages.Sublist others) :
    shareOf stages ≤ shareOf others := by
  induction part with
  | slnil => exact Nat.le_refl _
  | cons stage _ ih =>
      rw [shareOf_cons]
      omega
  | cons_cons stage _ ih =>
      rw [shareOf_cons, shareOf_cons]
      omega

section Once

variable {stages others : List Stage}

/-- More stages have a larger share. -/
theorem shareOf_le_of_subset (once : stages.Nodup) (within : stages ⊆ others) :
    shareOf stages ≤ shareOf others := by
  obtain ⟨between, same, part⟩ := List.subperm_of_subset once within
  rw [← shareOf_perm same]
  exact shareOf_le_of_sublist part

theorem shareOf_all : shareOf Stage.all = 100 := rfl

theorem shareOf_le (once : stages.Nodup) : shareOf stages ≤ 100 := by
  rw [← shareOf_all]
  exact shareOf_le_of_subset once fun stage _ => stage.mem_all

/-- The shares make up a hundred exactly if no stage is missing. -/
theorem shareOf_eq_hundred_iff (once : stages.Nodup) :
    shareOf stages = 100 ↔ ∀ stage, stage ∈ stages := by
  constructor
  · intro whole stage
    by_contra missing
    have more := shareOf_le (List.nodup_cons.2 ⟨missing, once⟩)
    have pos := share_pos stage
    rw [shareOf_cons] at more
    omega
  · intro every
    refine Nat.le_antisymm (shareOf_le once) ?_
    rw [← shareOf_all]
    exact shareOf_le_of_subset (by decide) fun stage _ => every stage

end Once

/-! ## Sums of numbers -/

theorem hasValue_ofNat {n : Nat} (few : n < 2 ^ 24) : (Binary.ofNat n : Single).HasValue n := by
  have exact_ : rounded Format.single n = n := rounded_natCast few (by decide)
  have nonneg : (0 : Rat) ≤ n := Nat.cast_nonneg n
  have below : (n : Rat) < 2 ^ (24 : Int) := by exact_mod_cast few
  have within : rounded Format.single n < Format.single.limit := by
    rw [exact_]
    exact below.trans (zpow_lt_zpow_right₀ (by norm_num) (by decide))
  have finite : (Binary.ofNat n : Single).isFinite = true :=
    (isFinite_ofMagnitude_iff false nonneg).2 within
  exact ⟨finite, (toRat_ofMagnitude nonneg finite).trans exact_⟩

/-- A sum of whole numbers is exact as long as the precision can count it. -/
theorem hasValue_add_ofNat {total : Single} {n k : Nat} (value : total.HasValue n)
    (few : n + k < 2 ^ 24) : (total + Binary.ofNat k).HasValue (n + k : Nat) := by
  obtain ⟨finite, value⟩ := value
  obtain ⟨finite', value'⟩ := hasValue_ofNat (n := k) (by omega)
  obtain ⟨zeroSign, sum⟩ := exists_add_eq finite finite'
  have whole := hasValue_ofNat few
  have within : rounded Format.single (n + k : Nat) < Format.single.limit := by
    rw [rounded_natCast few (by decide), ← whole.2]
    refine toRat_lt_limit whole.1 ?_
    rw [whole.2]
    exact Nat.cast_nonneg _
  rw [sum, value, value', ← Nat.cast_add]
  have nearest := hasValue_nearest (f := Format.single) zeroSign (Nat.cast_nonneg (n + k)) within
  rwa [rounded_natCast few (by decide)] at nearest

theorem hasValue_sumOfShares {stages : List Stage} (few : shareOf stages < 2 ^ 24) :
    (sumOfShares stages).HasValue (shareOf stages) := by
  have from_ : ∀ (stages : List Stage) (total : Single) (n : Nat), total.HasValue n →
      n + shareOf stages < 2 ^ 24 →
      (stages.foldl (fun total stage => total + Binary.ofNat stage.share) total).HasValue
        (n + shareOf stages : Nat) := by
    intro stages
    induction stages with
    | nil =>
        intro total n value _
        exact value
    | cons stage stages ih =>
        intro total n value few
        rw [shareOf_cons] at few ⊢
        rw [List.foldl_cons, ← Nat.add_assoc]
        exact ih _ _ (hasValue_add_ofNat value (by omega)) (by omega)
  have sum := from_ stages (Binary.zero true) 0 ⟨rfl, by simp [toRat_zero]⟩ (by omega)
  rwa [Nat.zero_add] at sum

/-! ## Percentages -/

/-- What is shown for a share of `n` in a hundred: the quotient is rounded, and so is the product. -/
def shown (n : Nat) : Rat :=
  rounded Format.single (rounded Format.single (n / 100) * 100)

theorem shown_mono {n k : Nat} (less : n ≤ k) : shown n ≤ shown k := by
  have quotients : (n : Rat) / 100 ≤ k / 100 := by
    have cast : (n : Rat) ≤ k := by exact_mod_cast less
    linarith
  have first := rounded_mono (f := Format.single) (by positivity) quotients
  have nonneg := rounded_nonneg (f := Format.single) (q := (n : Rat) / 100) (by positivity)
  exact rounded_mono (by linarith) (by linarith)

theorem shown_zero : shown 0 = 0 := by
  simp [shown, rounded_zero]

theorem shown_hundred : shown 100 = 100 := by
  have hundred := rounded_natCast (f := Format.single) (n := 100) (by decide) (by decide)
  have quotient : ((100 : Nat) : Rat) / 100 = 1 := by norm_num
  rw [shown, quotient, rounded_one (by decide), one_mul]
  exact_mod_cast hundred

theorem shown_bounds {n : Nat} (few : n ≤ 100) : 0 ≤ shown n ∧ shown n ≤ 100 := by
  constructor
  · rw [← shown_zero]
    exact shown_mono (Nat.zero_le n)
  · rw [← shown_hundred]
    exact shown_mono few

/-- Two roundings move a share by less than a hundred-thousandth. -/
theorem abs_shown_sub_le {n : Nat} (few : n ≤ 100) : |shown n - n| ≤ 1 / 100000 := by
  have cast : (n : Rat) ≤ 100 := by exact_mod_cast few
  have nonneg : (0 : Rat) ≤ n := Nat.cast_nonneg n
  have quotient : |rounded Format.single ((n : Rat) / 100) - n / 100| ≤ 2 ^ (1 - 24 : Int) / 2 :=
    abs_rounded_sub_le_of_lt (by positivity) (by norm_num; linarith) (by decide)
  obtain ⟨low, high⟩ := abs_le.1 quotient
  have quotientNonneg := rounded_nonneg (f := Format.single) (q := (n : Rat) / 100) (by positivity)
  have product : |shown n - rounded Format.single ((n : Rat) / 100) * 100| ≤
      2 ^ (7 - 24 : Int) / 2 := by
    refine abs_rounded_sub_le_of_lt (by linarith) ?_ (by decide)
    norm_num at high ⊢
    linarith
  obtain ⟨low', high'⟩ := abs_le.1 product
  rw [abs_le]
  norm_num at low high low' high' ⊢
  constructor
  · linarith
  · linarith

theorem shown_eq_hundred_iff {n : Nat} (few : n ≤ 100) : shown n = 100 ↔ n = 100 := by
  constructor
  · intro whole
    have near := abs_shown_sub_le few
    rw [whole] at near
    obtain ⟨_, high⟩ := abs_le.1 near
    by_contra less
    have cast : (n : Rat) ≤ 99 := by exact_mod_cast (by omega : n ≤ 99)
    linarith
  · rintro rfl
    exact shown_hundred

theorem shown_eq_zero_iff {n : Nat} (few : n ≤ 100) : shown n = 0 ↔ n = 0 := by
  constructor
  · intro zero
    have near := abs_shown_sub_le few
    rw [zero] at near
    obtain ⟨low, _⟩ := abs_le.1 near
    by_contra more
    have cast : (1 : Rat) ≤ n := by exact_mod_cast Nat.one_le_iff_ne_zero.2 more
    linarith
  · rintro rfl
    exact shown_zero

theorem hasValue_hundred : (100 : Single).HasValue 100 := by decide +kernel

/-- What lies between zero and a hundred is kept as it is. -/
theorem clamp_of_bounds {x : Single} (finite : x.isFinite = true) (nonneg : 0 ≤ x.toRat)
    (few : x.toRat ≤ 100) : x.clamp 0 100 = x := by
  have notBelow : ¬ x < 0 := by
    rw [lt_iff_toRat_lt finite isFinite_literal_zero, toRat_literal_zero]
    exact not_lt.2 nonneg
  have notAbove : ¬ 100 < x := by
    rw [lt_iff_toRat_lt hasValue_hundred.1 finite, hasValue_hundred.2]
    exact not_lt.2 few
  rw [clamp, if_neg notBelow, if_neg notAbove]

/-! ## What is done -/

variable {stages others : List Stage}

theorem hasValue_percentDone (few : shareOf stages ≤ 100) :
    (percentDone stages).HasValue (shown (shareOf stages)) := by
  have bounds := shown_bounds few
  have sum : (sumOfShares stages).HasValue (shareOf stages) := hasValue_sumOfShares (by omega)
  obtain ⟨finite, value⟩ := sum
  have whole : (sumOfShares Stage.all).HasValue (shareOf Stage.all) :=
    hasValue_sumOfShares (by decide)
  obtain ⟨finiteAll, valueAll⟩ := whole
  rw [shareOf_all] at valueAll
  have nonzero : (sumOfShares Stage.all).toRat ≠ 0 := by
    rw [valueAll]
    norm_num
  have small : (shareOf stages : Rat) ≤ 100 := by exact_mod_cast few
  have nonneg : (0 : Rat) ≤ shareOf stages / 100 := by positivity
  have limit : ∀ q : Rat, q ≤ 100 → q < Format.single.limit := by
    intro q bound
    have hundred := toRat_lt_limit hasValue_hundred.1 (by rw [hasValue_hundred.2]; norm_num)
    rw [hasValue_hundred.2] at hundred
    exact bound.trans_lt hundred
  have quotientAtMost : rounded Format.single ((shareOf stages : Rat) / 100) ≤ 1 := by
    rw [← rounded_one (f := Format.single) (by decide)]
    exact rounded_mono nonneg (by linarith)
  have quotientNonneg := rounded_nonneg (f := Format.single) nonneg
  -- the quotient is rounded, then the product, and both stay below the limit
  obtain ⟨zeroSign, divided⟩ := exists_div_eq finite finiteAll nonzero
  rw [value, valueAll, Nat.cast_ofNat] at divided
  have quotient := hasValue_nearest (f := Format.single) zeroSign nonneg (limit _ (by linarith))
  rw [← divided] at quotient
  obtain ⟨zeroSign', multiplied⟩ := exists_mul_eq quotient.1 hasValue_hundred.1
  rw [quotient.2, hasValue_hundred.2] at multiplied
  have product := hasValue_nearest (f := Format.single) zeroSign' (by linarith)
    (limit _ bounds.2)
  rw [← multiplied] at product
  unfold percentDone
  rw [clamp_of_bounds product.1 (product.2 ▸ bounds.1) (product.2 ▸ bounds.2)]
  exact product

section Once

variable (once : stages.Nodup)

include once

theorem isFinite_percentDone : (percentDone stages).isFinite = true :=
  (hasValue_percentDone (shareOf_le once)).1

theorem toRat_percentDone : (percentDone stages).toRat = shown (shareOf stages) :=
  (hasValue_percentDone (shareOf_le once)).2

/-- What is shown is kept as it is when it is put between zero and a hundred once more. -/
theorem clamp_percentDone : (percentDone stages).clamp 0 100 = percentDone stages := by
  have bounds := shown_bounds (shareOf_le once)
  rw [← toRat_percentDone once] at bounds
  exact clamp_of_bounds (isFinite_percentDone once) bounds.1 bounds.2

/-- **What is shown is the share**, but for two roundings. -/
theorem abs_toRat_percentDone_sub_le :
    |(percentDone stages).toRat - shareOf stages| ≤ 1 / 100000 := by
  rw [toRat_percentDone once]
  exact abs_shown_sub_le (shareOf_le once)

/-- **A hundred is shown exactly if all stages are done.** -/
theorem percentDone_eq_hundred_iff : percentDone stages = 100 ↔ ∀ stage, stage ∈ stages := by
  rw [← shareOf_eq_hundred_iff once, ← shown_eq_hundred_iff (shareOf_le once),
    ← toRat_percentDone once]
  constructor
  · intro whole
    rw [whole, hasValue_hundred.2]
  · intro whole
    refine eq_of_toRat_eq (isFinite_percentDone once) hasValue_hundred.1 ?_ ?_
    · rw [whole]
      norm_num
    · rw [whole, hasValue_hundred.2]

/-- **Nothing is shown exactly if no stage is done.** -/
theorem toRat_percentDone_eq_zero_iff : (percentDone stages).toRat = 0 ↔ stages = [] := by
  rw [toRat_percentDone once, shown_eq_zero_iff (shareOf_le once), shareOf_eq_zero_iff]

/-- **What is shown grows with the stages.** -/
theorem percentDone_le (onceOthers : others.Nodup) (within : stages ⊆ others) :
    percentDone stages ≤ percentDone others := by
  rw [le_iff_toRat_le (isFinite_percentDone once) (isFinite_percentDone onceOthers),
    toRat_percentDone once, toRat_percentDone onceOthers]
  exact shown_mono (shareOf_le_of_subset once within)

end Once

theorem sumOfShares_perm (same : stages.Perm others) (few : shareOf stages < 2 ^ 24) :
    sumOfShares stages = sumOfShares others := by
  by_cases empty : stages = []
  · subst empty
    rw [List.nil_perm.1 same]
  · have value := hasValue_sumOfShares few
    have value' := hasValue_sumOfShares (shareOf_perm same ▸ few)
    refine eq_of_toRat_eq value.1 value'.1 ?_ ?_
    · rw [value.2, Nat.cast_ne_zero]
      exact fun zero => empty (shareOf_eq_zero_iff.1 zero)
    · rw [value.2, value'.2, shareOf_perm same]

/-- **The order in which stages are done does not matter.** -/
theorem percentDone_perm (once : stages.Nodup) (same : stages.Perm others) :
    percentDone stages = percentDone others := by
  have few := shareOf_le once
  unfold percentDone
  rw [sumOfShares_perm same (by omega)]

theorem percentDone_nil : (percentDone []).toRat = 0 := by
  rw [toRat_percentDone List.nodup_nil, shareOf_nil, shown_zero]

end Slidecast.Progress
