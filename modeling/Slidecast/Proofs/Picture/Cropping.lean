import Slidecast.Picture.Crop
import Slidecast.Proofs.Number.Places

/-!
# Cuts that keep the shape

A side of a picture is a number of 32 bits, and 64-bit numbers count it exactly.  Ratios of sides are
rounded, and so is the side that is computed from a ratio, but each time only by a part in `2 ^ 53`
(`Binary.abs_rounded_sub_le_part`), so that a computed side is hardly off
(`abs_scaled_sub_le`, `abs_unscaled_sub_le`).  Its fraction is dropped, and it is kept between one
and the side of the picture; none of this takes it two pixels away from the exact side
(`abs_sideOf_sub_lt`).

So a cut lies in the picture and in its middle, and one side of it is that of the picture while the
other one is what the shape of the target makes of it (`centred_fits`).  Rounding never turns the two
sides around: only a picture that is wider than the target loses some of its width.
-/

set_option autoImplicit false

namespace Slidecast.Picture

open Number

/-! ## Numbers of 64 bits for sides -/

section Sides

variable {n d : Nat}

/-- A side of a picture: at least one pixel, and no more than 32 bits can count. -/
structure IsSide (n : Nat) : Prop where
  pos : 1 ≤ n
  most : n ≤ longestSide

instance (n : Nat) : Decidable (IsSide n) :=
  decidable_of_iff (1 ≤ n ∧ n ≤ longestSide) ⟨fun ⟨pos, most⟩ => ⟨pos, most⟩,
    fun side => ⟨side.pos, side.most⟩⟩

theorem IsSide.lt (side : IsSide n) : n < 2 ^ 32 := by
  have most := side.most
  have longest : longestSide = 2 ^ 32 - 1 := rfl
  omega

theorem IsSide.one_le (side : IsSide n) : (1 : Rat) ≤ n := by exact_mod_cast side.pos

theorem IsSide.cast_lt (side : IsSide n) : (n : Rat) < 2 ^ 32 := by exact_mod_cast side.lt

/-- A side is counted exactly. -/
theorem IsSide.rounded_eq (side : IsSide n) : Binary.rounded Format.double n = n :=
  Binary.rounded_natCast (side.lt.trans (by decide)) (by decide)

theorem IsSide.hasValue (side : IsSide n) : (Binary.ofNat n : Double).HasValue n := by
  have small := side.cast_lt
  have within := Binary.rounded_lt_limit_double (e := 32) (Nat.cast_nonneg n)
    (by exact_mod_cast small.le) (by decide) (by decide)
  rw [side.rounded_eq] at within
  exact Binary.hasValue_ofMagnitude_natCast false side.rounded_eq within

/-- The ratio of two sides is neither tiny nor huge. -/
theorem ratio_bounds (first : IsSide n) (second : IsSide d) :
    1 / 2 ^ 32 ≤ (n : Rat) / d ∧ (n : Rat) / d < 2 ^ 32 := by
  have denominator := second.cast_lt
  have one := second.one_le
  have numerator := first.one_le
  have numerator' := first.cast_lt
  constructor
  · rw [le_div_iff₀ (by linarith)]
    linarith
  · rw [div_lt_iff₀ (by linarith)]
    nlinarith

/-- The ratio of two sides, rounded. -/
def roundedRatio (n d : Nat) : Rat := Binary.rounded Format.double (n / d)

theorem abs_roundedRatio_sub_le (first : IsSide n) (second : IsSide d) :
    |roundedRatio n d - n / d| ≤ n / d / 2 ^ 53 := by
  have bounds := ratio_bounds first second
  exact Binary.abs_rounded_sub_le_part (by norm_num at bounds ⊢; linarith)

theorem hasValue_ratio (first : IsSide n) (second : IsSide d) :
    (ratio n d).HasValue (roundedRatio n d) := by
  have one := second.one_le
  obtain ⟨low, high⟩ := ratio_bounds first second
  have nonneg : 0 ≤ (n : Rat) / d := by norm_num at low; linarith
  obtain ⟨zeroSign, quotient⟩ := Binary.exists_div_eq first.hasValue.1 second.hasValue.1
    (by rw [second.hasValue.2]; linarith)
  rw [ratio, max_eq_left second.pos, quotient, first.hasValue.2, second.hasValue.2]
  exact Binary.hasValue_nearest zeroSign nonneg
    (Binary.rounded_lt_limit_double (e := 32) nonneg (by exact_mod_cast high.le) (by decide)
      (by decide))

theorem roundedRatio_bounds (first : IsSide n) (second : IsSide d) :
    1 / 2 ^ 33 ≤ roundedRatio n d ∧ roundedRatio n d ≤ 2 ^ 33 := by
  obtain ⟨low, high⟩ := ratio_bounds first second
  obtain ⟨below, above⟩ := abs_le.1 (abs_roundedRatio_sub_le first second)
  norm_num at low high below above ⊢
  constructor <;> linarith

theorem roundedRatio_pos (first : IsSide n) (second : IsSide d) : 0 < roundedRatio n d := by
  obtain ⟨low, _⟩ := roundedRatio_bounds first second
  norm_num at low
  linarith

end Sides

/-! ## Computed sides -/

section Computed

variable {w h tw th : Nat} {x : Double} {q exact_ : Rat} {side : Nat}

/-- The whole part of a number, between one and a side. -/
theorem sideOf_eq (isSide : IsSide side) (value : x.HasValue q) (nonneg : 0 ≤ q) :
    sideOf x side = min (max ⌊q⌋.toNat 1) side := by
  have most := isSide.most
  have pos := isSide.pos
  have whole : x.truncate longestSide = min longestSide ⌊q⌋.toNat :=
    Binary.truncate_of_hasValue longestSide value nonneg
  rw [sideOf, whole]
  omega

/-- **A computed side is less than two pixels off.** -/
theorem abs_sideOf_sub_lt (isSide : IsSide side) (value : x.HasValue q) (nonneg : 0 ≤ q)
    (near : |q - exact_| < 1) (pos : 0 < exact_) (most : exact_ < side + 1) :
    1 ≤ sideOf x side ∧ sideOf x side ≤ side ∧ |(sideOf x side : Rat) - exact_| < 2 := by
  have sidePos := isSide.pos
  have same := sideOf_eq isSide value nonneg
  obtain ⟨below, above⟩ := abs_lt.1 near
  have floorNonneg : 0 ≤ ⌊q⌋ := Int.floor_nonneg.2 nonneg
  have low := Int.floor_le q
  have high := Int.lt_floor_add_one q
  obtain ⟨k, floor⟩ := Int.eq_ofNat_of_zero_le floorNonneg
  rw [floor, Int.toNat_natCast] at same
  rw [floor, Int.cast_natCast] at low high
  refine ⟨by omega, by omega, ?_⟩
  rw [abs_lt]
  rcases Nat.lt_or_ge k 1 with nothing | left
  · -- nothing is left of it: it counts as one
    have one : sideOf x side = 1 := by omega
    have zero : (k : Rat) = 0 := by exact_mod_cast Nat.lt_one_iff.1 nothing
    rw [one, Nat.cast_one]
    constructor <;> linarith
  · rcases Nat.lt_or_ge side k with beyond | within
    · have all : sideOf x side = side := by omega
      have reached : (side : Rat) + 1 ≤ k := by exact_mod_cast beyond
      rw [all]
      constructor <;> linarith
    · have whole : sideOf x side = k := by omega
      rw [whole]
      constructor <;> linarith

/-- The width that a height makes in the shape of a target, as it is computed. -/
theorem hasValue_scaled (targetWidth : IsSide tw) (targetHeight : IsSide th) (height : IsSide h) :
    (ratio tw th * Binary.ofNat h).HasValue
      (Binary.rounded Format.double (roundedRatio tw th * h)) := by
  obtain ⟨_, high⟩ := roundedRatio_bounds targetWidth targetHeight
  have one := height.one_le
  have small := height.cast_lt
  have target := hasValue_ratio targetWidth targetHeight
  obtain ⟨zeroSign, product⟩ := Binary.exists_mul_eq target.1 height.hasValue.1
  rw [product, target.2, height.hasValue.2]
  have nonneg := (roundedRatio_pos targetWidth targetHeight).le
  refine Binary.hasValue_nearest zeroSign (by positivity)
    (Binary.rounded_lt_limit_double (e := 65) (by positivity) ?_ (by decide) (by decide))
  calc roundedRatio tw th * h ≤ 2 ^ 33 * 2 ^ 32 :=
        mul_le_mul high small.le (by linarith) (by positivity)
    _ = 2 ^ (65 : Int) := by norm_num

/-- The width that a height makes is off by a small part of it. -/
theorem abs_scaled_sub_le (targetWidth : IsSide tw) (targetHeight : IsSide th)
    (height : IsSide h) :
    |Binary.rounded Format.double (roundedRatio tw th * h) - tw * h / th| ≤
      tw * h / th / 2 ^ 51 := by
  have one := height.one_le
  obtain ⟨least, _⟩ := roundedRatio_bounds targetWidth targetHeight
  have ratioNear := abs_roundedRatio_sub_le targetWidth targetHeight
  have same : (tw : Rat) * h / th = tw / th * h := by ring
  rw [same]
  generalize (tw : Rat) / th = a at ratioNear ⊢
  generalize roundedRatio tw th = r at ratioNear least ⊢
  have scaledNear : |r * h - a * h| ≤ a * h / 2 ^ 53 := by
    rw [← sub_mul, abs_mul, abs_of_nonneg (by linarith : (0 : Rat) ≤ h), mul_div_right_comm]
    exact mul_le_mul_of_nonneg_right ratioNear (by linarith)
  have large : 1 / 2 ^ 40 ≤ r * h := by
    norm_num at least ⊢
    nlinarith
  have rounding := Binary.abs_rounded_sub_le_part large
  rw [abs_le] at scaledNear rounding ⊢
  constructor <;> linarith

/-- The height that a width makes in the shape of a target, as it is computed. -/
theorem hasValue_unscaled (width : IsSide w) (targetWidth : IsSide tw)
    (targetHeight : IsSide th) :
    (Binary.ofNat w / ratio tw th).HasValue
      (Binary.rounded Format.double (w / roundedRatio tw th)) := by
  obtain ⟨low, _⟩ := roundedRatio_bounds targetWidth targetHeight
  have small := width.cast_lt
  have target := hasValue_ratio targetWidth targetHeight
  have pos := roundedRatio_pos targetWidth targetHeight
  obtain ⟨zeroSign, quotient⟩ := Binary.exists_div_eq width.hasValue.1 target.1
    (by rw [target.2]; exact pos.ne')
  rw [quotient, target.2, width.hasValue.2]
  refine Binary.hasValue_nearest zeroSign (by positivity)
    (Binary.rounded_lt_limit_double (e := 65) (by positivity) ?_ (by decide) (by decide))
  rw [div_le_iff₀ pos]
  calc (w : Rat) ≤ 2 ^ 65 * (1 / 2 ^ 33) := by linarith
    _ ≤ 2 ^ (65 : Int) * roundedRatio tw th := mul_le_mul_of_nonneg_left low (by norm_num)

/-- Dividing by a rounded ratio is nearly dividing by the ratio itself. -/
theorem abs_div_roundedRatio_sub_le (targetWidth : IsSide tw) (targetHeight : IsSide th) (w : Nat) :
    |w / roundedRatio tw th - w * th / tw| ≤ w * th / tw / 2 ^ 52 := by
  obtain ⟨least, _⟩ := ratio_bounds targetWidth targetHeight
  have near := abs_roundedRatio_sub_le targetWidth targetHeight
  have target := targetWidth.one_le
  have target' := targetHeight.one_le
  have wide : (0 : Rat) ≤ w := Nat.cast_nonneg w
  have pos : 0 < (tw : Rat) / th := by norm_num at least; linarith
  have same : (w : Rat) * th / tw = w / (tw / th) := by
    rw [div_div_eq_mul_div]
  rw [same]
  generalize (tw : Rat) / th = a at near pos ⊢
  generalize roundedRatio tw th = r at near ⊢
  rw [abs_le] at near
  have half : a / 2 ≤ r := by linarith
  have rPos : 0 < r := by linarith
  have exact_ : (w : Rat) / a * a = w := div_mul_cancel₀ _ pos.ne'
  have quotient : 0 ≤ (w : Rat) / a := by positivity
  generalize (w : Rat) / a = e at exact_ quotient ⊢
  have high := mul_le_mul_of_nonneg_left near.2 quotient
  have low := mul_le_mul_of_nonneg_left near.1 quotient
  have part := mul_le_mul_of_nonneg_left half quotient
  -- multiplied by the rounded ratio, both bounds are bounds on the quotient times what was rounded
  rw [abs_le, le_sub_iff_add_le, sub_le_iff_le_add, le_div_iff₀ rPos, div_le_iff₀ rPos]
  constructor <;> nlinarith

/-- The height that a width makes is off by a small part of it. -/
theorem abs_unscaled_sub_le (width : IsSide w) (targetWidth : IsSide tw)
    (targetHeight : IsSide th) :
    |Binary.rounded Format.double (w / roundedRatio tw th) - w * th / tw| ≤
      w * th / tw / 2 ^ 51 := by
  obtain ⟨_, most⟩ := roundedRatio_bounds targetWidth targetHeight
  have one := width.one_le
  have near := abs_div_roundedRatio_sub_le targetWidth targetHeight w
  have pos := roundedRatio_pos targetWidth targetHeight
  have large : 1 / 2 ^ 40 ≤ w / roundedRatio tw th := by
    rw [le_div_iff₀ pos]
    norm_num at most ⊢
    linarith
  have rounding := Binary.abs_rounded_sub_le_part large
  rw [abs_le] at near rounding ⊢
  constructor <;> linarith

end Computed

/-! ## The cut -/

section Cut

variable {w h tw th : Nat}

/-- What is kept of a side lies in its middle: something is kept, and what is cut off in front and
behind differs by at most one pixel. -/
structure InMiddle (side start kept : Nat) : Prop where
  pos : 1 ≤ kept
  within : start + kept ≤ side
  front : start ≤ side - (start + kept) + 1
  behind : side - (start + kept) ≤ start + 1

theorem inMiddle {side kept : Nat} (pos : 1 ≤ kept) (within : kept ≤ side) :
    InMiddle side ((side - kept) / 2) kept :=
  ⟨pos, by omega, by omega, by omega⟩

theorem inMiddle_whole {side : Nat} (pos : 1 ≤ side) : InMiddle side 0 side :=
  ⟨pos, by omega, by omega, by omega⟩

/-- A part of a picture that has the shape of a target: it lies in the picture and in its middle, and
either all of the height is kept and the width is that of the shape, up to two pixels, which happens
only to pictures that are wider than the target; or all of the width is kept, and the height is that
of the shape. -/
structure Fits (w h tw th : Nat) (r : Region) : Prop where
  across : InMiddle w r.x r.width
  down : InMiddle h r.y r.height
  shape :
    (r.y = 0 ∧ r.height = h ∧ |(r.width : Rat) - tw * h / th| < 2 ∧ tw * h < w * th) ∨
    (r.x = 0 ∧ r.width = w ∧ |(r.height : Rat) - w * th / tw| < 2)

/-- A larger computed ratio belongs to a larger ratio. -/
theorem wider_of_lt (width : IsSide w) (height : IsSide h) (targetWidth : IsSide tw)
    (targetHeight : IsSide th) (wider : ratio tw th < ratio w h) : tw * h < w * th := by
  have source := hasValue_ratio width height
  have target := hasValue_ratio targetWidth targetHeight
  rw [Binary.lt_iff_toRat_lt target.1 source.1, target.2, source.2] at wider
  have heightPos := height.one_le
  have targetPos := targetHeight.one_le
  have exact_ : (tw : Rat) / th < w / h := by
    by_contra narrow
    have mono := Binary.rounded_mono (f := Format.double) (by positivity) (not_lt.1 narrow)
    exact absurd wider (not_lt.2 mono)
  rw [div_lt_div_iff₀ (by linarith) (by linarith)] at exact_
  exact_mod_cast exact_

/-- A computed ratio that is not larger belongs to a height that fits, up to a pixel. -/
theorem lt_of_not_lt (width : IsSide w) (height : IsSide h) (targetWidth : IsSide tw)
    (targetHeight : IsSide th) (narrow : ¬ ratio tw th < ratio w h) :
    (w : Rat) * th / tw < h + 1 := by
  have source := hasValue_ratio width height
  have target := hasValue_ratio targetWidth targetHeight
  rw [Binary.lt_iff_toRat_lt target.1 source.1, target.2, source.2, not_lt] at narrow
  have sourceNear := (abs_le.1 (abs_roundedRatio_sub_le width height)).1
  have targetNear := (abs_le.1 (abs_roundedRatio_sub_le targetWidth targetHeight)).2
  have heightPos := height.one_le
  have small := height.cast_lt
  have widthPos := targetWidth.one_le
  have targetPos := targetHeight.one_le
  have ratioPos : 0 < (tw : Rat) / th := by positivity
  have source_ : (w : Rat) / h * h = w := div_mul_cancel₀ _ (by linarith)
  have computed : (w : Rat) * th / tw * (tw / th) = w := by field_simp
  generalize (w : Rat) * th / tw = e at computed ⊢
  generalize (tw : Rat) / th = a at *
  generalize (w : Rat) / h = b at *
  -- the ratio of the source is larger than that of the target by two parts in `2 ^ 53` at most
  have close : b * (1 - 1 / 2 ^ 53) ≤ a * (1 + 1 / 2 ^ 53) := by linarith
  have scaled : e * (1 - 1 / 2 ^ 53) ≤ (1 + 1 / 2 ^ 53) * h := by
    refine le_of_mul_le_mul_right ?_ ratioPos
    calc e * (1 - 1 / 2 ^ 53) * a = e * a * (1 - 1 / 2 ^ 53) := by ring
      _ = b * h * (1 - 1 / 2 ^ 53) := by rw [computed, source_]
      _ = b * (1 - 1 / 2 ^ 53) * h := by ring
      _ ≤ a * (1 + 1 / 2 ^ 53) * h := mul_le_mul_of_nonneg_right close (by linarith)
      _ = (1 + 1 / 2 ^ 53) * h * a := by ring
  by_contra large
  linarith

/-- **A cut fits.**  Wherever there is a side to keep, the part that is kept lies in the middle of the
picture and has the shape of the target, up to two pixels, and only a picture that is wider than the
target loses some of its width. -/
theorem centred_fits (w h tw th : Nat) (width : IsSide w) (height : IsSide h)
    (targetWidth : IsSide tw) (targetHeight : IsSide th) :
    Fits w h tw th (centred w h tw th) := by
  have widthPos := targetWidth.one_le
  have heightPos := targetHeight.one_le
  have sourceWidthPos := width.one_le
  have sourceHeightPos := height.one_le
  have ratioPos := roundedRatio_pos targetWidth targetHeight
  unfold centred
  dsimp only
  split
  next wider =>
    have wider' := wider_of_lt width height targetWidth targetHeight wider
    have pos : 0 < (tw : Rat) * h / th := by positivity
    have most : (tw : Rat) * h / th < w := by
      rw [div_lt_iff₀ (by linarith)]
      exact_mod_cast wider'
    have small := width.cast_lt
    have near : |Binary.rounded Format.double (roundedRatio tw th * h) - tw * h / th| < 1 :=
      (abs_scaled_sub_le targetWidth targetHeight height).trans_lt (by linarith)
    have value := hasValue_scaled targetWidth targetHeight height
    have nonneg : 0 ≤ Binary.rounded Format.double (roundedRatio tw th * h) :=
      Binary.rounded_nonneg (mul_nonneg ratioPos.le (Nat.cast_nonneg h))
    obtain ⟨filled, within, close⟩ := abs_sideOf_sub_lt width value nonneg near pos (by linarith)
    exact ⟨inMiddle filled within, inMiddle_whole height.pos, .inl ⟨rfl, rfl, close, wider'⟩⟩
  next narrow =>
    have pos : 0 < (w : Rat) * th / tw := by positivity
    have most := lt_of_not_lt width height targetWidth targetHeight narrow
    have small := height.cast_lt
    have near : |Binary.rounded Format.double (w / roundedRatio tw th) - w * th / tw| < 1 :=
      (abs_unscaled_sub_le width targetWidth targetHeight).trans_lt (by linarith)
    have value := hasValue_unscaled width targetWidth targetHeight
    have nonneg : 0 ≤ Binary.rounded Format.double (w / roundedRatio tw th) :=
      Binary.rounded_nonneg (div_nonneg (Nat.cast_nonneg w) ratioPos.le)
    obtain ⟨filled, within, close⟩ := abs_sideOf_sub_lt height value nonneg near pos most
    exact ⟨inMiddle_whole width.pos, inMiddle filled within, .inr ⟨rfl, rfl, close⟩⟩

/-- A picture that lies on its side is cut to one that stands. -/
theorem centred_fits_landscape :
    (IsSide 2000 ∧ IsSide 1000 ∧ IsSide 1080 ∧ IsSide 1920) ∧
    Fits 2000 1000 1080 1920 (centred 2000 1000 1080 1920) ∧
    centred 2000 1000 1080 1920 = ⟨719, 0, 562, 1000⟩ := by
  have sides : IsSide 2000 ∧ IsSide 1000 ∧ IsSide 1080 ∧ IsSide 1920 := by decide
  exact ⟨sides, centred_fits 2000 1000 1080 1920 sides.1 sides.2.1 sides.2.2.1 sides.2.2.2,
    by decide +kernel⟩

end Cut

end Slidecast.Picture
