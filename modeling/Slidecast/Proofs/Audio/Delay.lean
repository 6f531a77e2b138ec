import Slidecast.Proofs.Audio.Call

/-!
# Delays of whole milliseconds

An offset that is written in thousandths of a second is read as the nearest number, multiplied by a
thousand, rounded, and cut down to whole milliseconds.  A product that lies below the thousandths is
rounded up to them if they are at most half a step away, and loses a whole millisecond otherwise.

Both roundings are counted in one unit.  With `k * 2 ^ s` from `1000 * 2 ^ 52` on and below twice as
much, the nearest number to `k` thousandths is a whole number of steps of `2 ^ -s`, and the product
is off by the remainder of `k * 2 ^ s` to the nearest multiple of a thousand
(`rounded_thousandths`).  A step of the product is 1024 units from `2 ^ 62` units on, more than twice
any remainder; below, it is 512 units, and a remainder of more than 256 is not made good
(`le_rounded_product_iff`).
-/

set_option autoImplicit false

namespace Slidecast.Audio

open Number

section Thousandths

variable {k s : Nat}

/-- In units of `2 ^ -s` milliseconds, a count of thousandths takes the 53 digits of a number behind
the factor of a thousand. -/
structure IsCounted (k s : Nat) : Prop where
  low : 1000 * 2 ^ 52 ≤ k * 2 ^ s
  high : k * 2 ^ s < 1000 * 2 ^ 53

/-- An offset of `k` thousandths loses a millisecond: its last steps are coarse, and the nearest number
to it lies too far below it. -/
def LosesMillisecond (k : Nat) : Prop :=
  ∃ s < 62, 1000 * 2 ^ 52 ≤ k * 2 ^ s ∧ k * 2 ^ s < 2 ^ 62 ∧
    256 < k * 2 ^ s % 1000 ∧ k * 2 ^ s % 1000 < 500

instance (k : Nat) : Decidable (LosesMillisecond k) :=
  inferInstanceAs (Decidable (∃ s < 62, _))

theorem exists_isCounted (pos : 0 < k) (small : k < 2 ^ 40) : ∃ s, IsCounted k s := by
  have nonzero : k ≠ 0 := pos.ne'
  have bits : k.log2 < 40 := (Nat.log2_lt nonzero).2 small
  have least : 2 ^ k.log2 ≤ k := Nat.log2_self_le nonzero
  have most : k < 2 ^ (k.log2 + 1) := Nat.lt_log2_self
  generalize k.log2 = e at bits least most
  have scaled : 2 ^ 61 ≤ k * 2 ^ (61 - e) ∧ k * 2 ^ (61 - e) < 2 ^ 62 := by
    have up : 2 ^ e * 2 ^ (61 - e) = 2 ^ 61 := by rw [← pow_add]; congr 1; omega
    have up' : 2 ^ (e + 1) * 2 ^ (61 - e) = 2 ^ 62 := by rw [← pow_add]; congr 1; omega
    exact ⟨up ▸ Nat.mul_le_mul_right _ least,
      up' ▸ Nat.mul_lt_mul_of_pos_right most (Nat.two_pow_pos _)⟩
  rcases le_or_gt (1000 * 2 ^ 52) (k * 2 ^ (61 - e)) with reached | short
  · exact ⟨61 - e, reached, by omega⟩
  · have twice : k * 2 ^ (61 - e + 1) = 2 * (k * 2 ^ (61 - e)) := by rw [pow_succ]; ring
    exact ⟨61 - e + 1, by omega, by omega⟩

namespace IsCounted

theorem le_sixty_two (counted : IsCounted k s) : s ≤ 62 := by
  by_contra many
  have pos : 0 < k := by
    rcases Nat.eq_zero_or_pos k with rfl | pos
    · have low := counted.low
      omega
    · exact pos
  have large : 2 ^ 63 ≤ k * 2 ^ s :=
    (Nat.pow_le_pow_right (by decide) (by omega)).trans (Nat.le_mul_of_pos_left _ pos)
  have high := counted.high
  omega

theorem twenty_two_le (counted : IsCounted k s) (small : k < 2 ^ 40) : 22 ≤ s := by
  by_contra few
  have less : k * 2 ^ s ≤ k * 2 ^ 21 :=
    Nat.mul_le_mul_left k (Nat.pow_le_pow_right (by decide) (by omega))
  have low := counted.low
  omega

theorem le_of_isCounted {t : Nat} (first : IsCounted k s) (second : IsCounted k t) : t ≤ s := by
  by_contra more
  have twice : k * 2 ^ (s + 1) = 2 * (k * 2 ^ s) := by rw [pow_succ]; ring
  have mono : k * 2 ^ (s + 1) ≤ k * 2 ^ t :=
    Nat.mul_le_mul_left k (Nat.pow_le_pow_right (by decide) (by omega))
  have low := first.low
  have high := second.high
  omega

end IsCounted

/-! ## The rounded offset -/

/-- The remainder of thousandths in units, to the nearest multiple of a thousand. -/
def remainder (k s : Nat) : Int := Int.bmod ((k * 2 ^ s : Nat) : Int) 1000

/-- A multiple of eight does not lie halfway between two multiples of a thousand. -/
theorem abs_bmod_lt {n : Int} (aligned : n % 8 = 0) : |Int.bmod n 1000| < 500 := by
  rw [Int.bmod_def, abs_lt]
  push_cast
  split_ifs <;> omega

theorem abs_remainder_lt (fine : 3 ≤ s) : |remainder k s| < 500 := by
  obtain ⟨j, rfl⟩ := Nat.exists_eq_add_of_le fine
  refine abs_bmod_lt ?_
  have eights : k * 2 ^ (3 + j) = 8 * (k * 2 ^ j) := by rw [pow_add]; ring
  omega

theorem cast_eq_units (k s : Nat) : (k : Rat) = ((k * 2 ^ s : Nat) : Rat) * 2 ^ (-(s : Int)) := by
  rw [zpow_neg, zpow_natCast]
  push_cast
  exact (mul_inv_cancel_right₀ (by positivity) _).symm

/-- **The nearest number to thousandths**, times a thousand, is off by the remainder. -/
theorem rounded_thousandths (counted : IsCounted k s) (fine : 3 ≤ s) :
    Binary.rounded Format.double (k / 1000) * 1000 = k - remainder k s * 2 ^ (-(s : Int)) := by
  have units := cast_eq_units k s
  have few := counted.le_sixty_two
  have near := abs_remainder_lt (k := k) fine
  have split : (remainder k s : Rat) + 1000 * (((k * 2 ^ s : Nat) : Int).bdiv 1000 : Int) =
      (k * 2 ^ s : Nat) := by
    exact_mod_cast Int.bmod_add_bdiv ((k * 2 ^ s : Nat) : Int) 1000
  have unit := two_zpow_pos (-(s : Int))
  have step : Binary.stepExponent Format.double (k / 1000) = -(s : Int) := by
    have low : (2 : Rat) ^ (52 - (s : Int)) ≤ k / 1000 := by
      rw [sub_eq_add_neg, zpow_add₀ (by norm_num), units, mul_div_right_comm]
      refine mul_le_mul_of_nonneg_right ?_ unit.le
      rw [le_div_iff₀ (by norm_num), mul_comm]
      exact_mod_cast counted.low
    have below : (k : Rat) / 1000 < 2 ^ (52 - (s : Int) + 1) := by
      have exponent : 52 - (s : Int) + 1 = 53 + -(s : Int) := by ring
      rw [exponent, zpow_add₀ (by norm_num), units, mul_div_right_comm]
      refine mul_lt_mul_of_pos_right ?_ unit
      rw [div_lt_iff₀ (by norm_num)]
      exact_mod_cast counted.high.trans_eq (mul_comm _ _)
    rw [Binary.stepExponent_of_binade low below (by show (-1074 : Int) ≤ 52 - s + 1 - 53; omega)]
    show 52 - (s : Int) + 1 - 53 = -s
    ring
  have whole : nearestEven (k / 1000 / 2 ^ (-(s : Int))) = ((k * 2 ^ s : Nat) : Int).bdiv 1000 := by
    refine nearestEven_eq_of_abs_lt ?_
    have quotient : (k : Rat) / 1000 / 2 ^ (-(s : Int)) = ((k * 2 ^ s : Nat) : Rat) / 1000 := by
      rw [units, div_right_comm, mul_div_cancel_right₀ _ unit.ne']
    have near' : |(remainder k s : Rat)| < 500 := by exact_mod_cast near
    rw [abs_lt] at near' ⊢
    rw [quotient, ← split]
    constructor <;> linarith
  rw [Binary.rounded, step, whole, units, ← split]
  ring

/-! ## The rounded product -/

/-- From a power of two of units up to the next one, what is missing is made good as long as it is at
most half a step, a part of `2 ^ 53`. -/
theorem le_rounded_iff_units {e : Nat} {r : Int} (fine : 22 ≤ s) (few : s ≤ 62) (coarse : e ≤ 62)
    (low : 2 ^ e ≤ ((k * 2 ^ s : Nat) : Int) - r)
    (below : ((k * 2 ^ s : Nat) : Int) - r < 2 ^ (e + 1)) :
    (k : Rat) ≤ Binary.rounded Format.double (k - r * 2 ^ (-(s : Int))) ↔ r * 2 ^ 53 ≤ 2 ^ e := by
  have unit := two_zpow_pos (-(s : Int))
  have value : (k : Rat) - r * 2 ^ (-(s : Int)) =
      ((((k * 2 ^ s : Nat) : Int) - r : Int) : Rat) * 2 ^ (-(s : Int)) := by
    rw [cast_eq_units k s]
    push_cast
    ring
  have low' : (2 : Rat) ^ ((e : Int) - s) ≤ k - r * 2 ^ (-(s : Int)) := by
    rw [value, sub_eq_add_neg, zpow_add₀ (by norm_num), zpow_natCast]
    exact mul_le_mul_of_nonneg_right (by exact_mod_cast low) unit.le
  have below' : (k : Rat) - r * 2 ^ (-(s : Int)) < 2 ^ ((e : Int) - s + 1) := by
    have exponent : (e : Int) - s + 1 = ((e + 1 : Nat) : Int) + -(s : Int) := by push_cast; ring
    rw [value, exponent, zpow_add₀ (by norm_num), zpow_natCast]
    exact mul_lt_mul_of_pos_right (by exact_mod_cast below) unit
  have half : (2 : Rat) ^ ((e : Int) - s - 53) = 2 ^ e / 2 ^ 53 * 2 ^ (-(s : Int)) := by
    have exponent : (e : Int) - s - 53 = (e : Int) - (53 : Nat) + -(s : Int) := by push_cast; ring
    rw [exponent, zpow_add₀ (by norm_num), zpow_sub₀ (by norm_num), zpow_natCast, zpow_natCast]
  rw [Binary.natCast_le_rounded_iff low' below' (by show (-1074 : Int) ≤ e - s + 1 - 53; omega)
    (by show (e : Int) - s + 1 < 53; omega)]
  show (k : Rat) - 2 ^ ((e : Int) - s - 53) ≤ _ ↔ _
  rw [half, sub_le_sub_iff_left, mul_le_mul_iff_left₀ unit, le_div_iff₀ (by norm_num)]
  exact_mod_cast Iff.rfl

/-- **When the product reaches the thousandths.** -/
theorem le_rounded_product_iff (counted : IsCounted k s) (small : k < 2 ^ 40) :
    (k : Rat) ≤ Binary.rounded Format.double (k - remainder k s * 2 ^ (-(s : Int))) ↔
      ¬ (k * 2 ^ s < 2 ^ 62 ∧ 256 < remainder k s) := by
  have few := counted.le_sixty_two
  have fine := counted.twenty_two_le small
  have near := abs_lt.1 (abs_remainder_lt (k := k) (s := s) (by omega))
  have low := counted.low
  have high := counted.high
  rcases le_or_gt (remainder k s) 0 with up | down
  · -- the nearest number is not below the thousandths
    have above : (k : Rat) ≤ k - remainder k s * 2 ^ (-(s : Int)) := by
      have part : (remainder k s : Rat) * 2 ^ (-(s : Int)) ≤ 0 :=
        mul_nonpos_of_nonpos_of_nonneg (by exact_mod_cast up) (two_zpow_pos _).le
      linarith
    have reached := Binary.rounded_mono (f := Format.double) (Nat.cast_nonneg k) above
    rw [Binary.rounded_natCast (small.trans (by decide)) (by decide)] at reached
    exact iff_of_true reached (by omega)
  · rcases lt_or_ge (k * 2 ^ s) (2 ^ 62) with coarse | full
    · rw [le_rounded_iff_units (e := 61) fine few (by decide) (by omega) (by omega)]
      omega
    · -- the power of two itself is rounded up, and the next whole number is many units away
      have apart : 2 ^ 62 + 2 ^ 22 ≤ k * 2 ^ s := by
        obtain ⟨j, rfl⟩ := Nat.exists_eq_add_of_le fine
        have units : k * 2 ^ (22 + j) = 2 ^ 22 * (k * 2 ^ j) := by rw [pow_add]; ring
        have other : k * 2 ^ (22 + j) ≠ 2 ^ 62 := by
          intro same
          have up : ¬ 0 < Int.bmod ((2 ^ 62 : Nat) : Int) 1000 := by decide
          exact up (same ▸ down)
        omega
      rw [le_rounded_iff_units (e := 62) fine few (by decide) (by omega) (by omega)]
      omega

/-! ## The delay -/

theorem lt_bmod_iff {n : Nat} :
    256 < Int.bmod (n : Int) 1000 ↔ 256 < n % 1000 ∧ n % 1000 < 500 := by
  rw [Int.bmod_def]
  push_cast
  split_ifs <;> omega

theorem losesMillisecond_iff (counted : IsCounted k s) :
    LosesMillisecond k ↔ k * 2 ^ s < 2 ^ 62 ∧ 256 < remainder k s := by
  have remains : 256 < remainder k s ↔ 256 < k * 2 ^ s % 1000 ∧ k * 2 ^ s % 1000 < 500 :=
    lt_bmod_iff
  rw [remains]
  constructor
  · rintro ⟨t, _, low, coarse, far⟩
    have other : IsCounted k t := ⟨low, by omega⟩
    obtain rfl : t = s :=
      le_antisymm (counted.le_of_isCounted other) (other.le_of_isCounted counted)
    exact ⟨coarse, far⟩
  · rintro ⟨coarse, far⟩
    have few := counted.le_sixty_two
    have low := counted.low
    refine ⟨s, lt_of_le_of_ne few ?_, low, coarse, far⟩
    rintro rfl
    omega

/-- The product is less than a millisecond away from the thousandths. -/
theorem floor_rounded_product (counted : IsCounted k s) (small : k < 2 ^ 40) :
    ⌊Binary.rounded Format.double (k - remainder k s * 2 ^ (-(s : Int)))⌋ =
      if LosesMillisecond k then (k : Int) - 1 else k := by
  have reached := le_rounded_product_iff counted small
  rw [← losesMillisecond_iff counted] at reached
  have fine := counted.twenty_two_le small
  have near : |(remainder k s : Rat)| < 500 := by
    exact_mod_cast abs_remainder_lt (k := k) (s := s) (by omega)
  have unit : (2 : Rat) ^ (-(s : Int)) ≤ 2 ^ (-22 : Int) :=
    zpow_le_zpow_right₀ (by norm_num) (by omega)
  have part : |(remainder k s : Rat) * 2 ^ (-(s : Int))| ≤ 500 * 2 ^ (-22 : Int) := by
    rw [abs_mul, abs_of_pos (two_zpow_pos _)]
    exact mul_le_mul near.le unit (two_zpow_pos _).le (by norm_num)
  have one : (1 : Rat) ≤ k := by
    have low := counted.low
    exact_mod_cast Nat.pos_of_ne_zero (by rintro rfl; omega)
  have most : (k : Rat) < 1099511627776 := by exact_mod_cast small
  generalize (remainder k s : Rat) * 2 ^ (-(s : Int)) = off at part reached
  rw [abs_le] at part
  norm_num at part
  have close := Binary.abs_rounded_sub_le_of_lt (f := Format.double) (q := k - off) (e := 41)
    (by linarith) (by norm_num; linarith) (by decide)
  generalize Binary.rounded Format.double (k - off) = y at reached close
  rw [abs_le] at close
  norm_num [Format.double] at close
  split
  next loses =>
    have short := not_le.1 (fun whole => reached.1 whole loses)
    rw [Int.floor_eq_iff]
    push_cast
    constructor <;> linarith
  next keeps =>
    have whole := reached.2 keeps
    rw [Int.floor_eq_iff]
    push_cast
    constructor <;> linarith

/-- The delay of the number nearest to thousandths is computed from their rounded product. -/
theorem delay_nearest (small : k < 2 ^ 40) (input : Nat) (volume : Single) :
    (Strand.ofOffset input (Binary.ofRat ((k : Rat) / 1000)) volume).delay =
      min longestDelay
        ⌊Binary.rounded Format.double
          (Binary.rounded Format.double ((k : Rat) / 1000) * 1000)⌋.toNat := by
  have nonneg : (0 : Rat) ≤ k / 1000 := by positivity
  have most : (k : Rat) < 2 ^ 40 := by exact_mod_cast small
  have within := Binary.rounded_lt_limit_double (e := 40) nonneg
    (by rw [div_le_iff₀ (by norm_num)]; norm_num at most ⊢; linarith) (by decide) (by decide)
  obtain ⟨finite, value⟩ := Binary.hasValue_nearest false nonneg within
  have level : IsLevel (Binary.ofRat ((k : Rat) / 1000) : Double) :=
    ⟨finite, value.symm ▸ Binary.rounded_nonneg nonneg⟩
  rw [delay_ofOffset level, delayOf]
  exact congrArg (fun q : Rat =>
    min longestDelay (Binary.rounded Format.double (q * 1000)).floor.toNat) value

/-- **When a delay of whole milliseconds is exact.**  The offset nearest to `k` thousandths of a
second is a delay of `k` milliseconds, exactly if no millisecond is lost to rounding; otherwise the
delay is one millisecond short. -/
theorem delay_thousandths_iff (k input : Nat) (volume : Single) (small : k < 2 ^ 40) :
    ((Strand.ofOffset input (Binary.ofRat ((k : Rat) / 1000)) volume).delay = k ↔
        ¬ LosesMillisecond k) ∧
      (LosesMillisecond k →
        (Strand.ofOffset input (Binary.ofRat ((k : Rat) / 1000)) volume).delay + 1 = k) := by
  have delay := delay_nearest small input volume
  rcases Nat.eq_zero_or_pos k with rfl | pos
  · have keeps : ¬ LosesMillisecond 0 := by
      rintro ⟨s, _, low, _⟩
      omega
    have zero : (Strand.ofOffset input (Binary.ofRat (((0 : Nat) : Rat) / 1000)) volume).delay =
        0 := by
      rw [delay]
      simp
    exact ⟨iff_of_true zero keeps, fun loses => absurd loses keeps⟩
  · obtain ⟨s, counted⟩ := exists_isCounted pos small
    have fine := counted.twenty_two_le small
    have room : k < longestDelay := small.trans (by decide)
    rw [rounded_thousandths counted (by omega), floor_rounded_product counted small] at delay
    rw [delay]
    by_cases loses : LosesMillisecond k
    · rw [if_pos loses]
      exact ⟨iff_of_false (by omega) (not_not.2 loses), fun _ => by omega⟩
    · rw [if_neg loses]
      exact ⟨iff_of_true (by omega) loses, fun lost => absurd lost loses⟩

/-- A second and a half is kept to the millisecond, and 1005 milliseconds lose one. -/
theorem delay_thousandths_pair :
    (1500 < 2 ^ 40 ∧ (Strand.ofOffset 0 (Binary.ofRat ((1500 : Nat) / 1000)) 1).delay = 1500) ∧
      (1005 < 2 ^ 40 ∧ (Strand.ofOffset 1 (Binary.ofRat ((1005 : Nat) / 1000)) 0.5).delay = 1004) := by
  have keeps : ¬ LosesMillisecond 1500 := by decide +kernel
  have loses : LosesMillisecond 1005 := by decide +kernel
  have kept := (delay_thousandths_iff 1500 0 1 (by decide)).1.2 keeps
  have lost := (delay_thousandths_iff 1005 1 0.5 (by decide)).2 loses
  exact ⟨⟨by decide, kept⟩, by decide, Nat.succ.inj lost⟩

/-- **A delay of whole milliseconds can be cut short**: 1.001 seconds are a delay of 1000
milliseconds. -/
theorem delay_not_exact :
    1001 < 2 ^ 40 ∧ (Strand.ofOffset 0 (Binary.ofRat ((1001 : Nat) / 1000)) 1).delay = 1000 ∧
      ¬ ∀ (k : Nat), k < 2 ^ 40 → ∀ (input : Nat) (volume : Single),
        (Strand.ofOffset input (Binary.ofRat ((k : Rat) / 1000)) volume).delay = k := by
  have short : (Strand.ofOffset 0 (Binary.ofRat ((1001 : Nat) / 1000)) 1).delay = 1000 := by
    decide +kernel
  refine ⟨by decide, short, fun exact_ => ?_⟩
  have whole := exact_ 1001 (by decide) 0 1
  rw [short] at whole
  exact absurd whole (by decide)

end Thousandths

end Slidecast.Audio
