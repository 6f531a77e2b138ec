import Slidecast.Proofs.Picture.Cropping

/-!
# Pictures that have the shape of the target

A picture with the ratio of the target need not be cut at all, and its width never is.  Its height is
computed by dividing the width by the ratio, and the ratio has been rounded.  If it has been rounded
up too far, the quotient lies below the height even when it is rounded itself, and the fraction that
is dropped costs a row of pixels.

How far is too far depends on the height.  A quotient below the height is rounded up to it if it is
at most `2 ^ (log2 height - 53)` away (`le_rounded_iff`), which is a larger part of a height just
above a power of two than of one just below the next.  So the picture is kept whole exactly when the
ratio exceeds the true one by no more than such a part, and loses its last row otherwise
(`same_shape_whole_iff`).
-/

set_option autoImplicit false

namespace Slidecast.Picture

open Number

section SameShape

variable {w h tw th : Nat}

/-! ## Whole numbers of pixels -/

theorem IsSide.log2_lt (height : IsSide h) : h.log2 < 32 :=
  (Nat.log2_lt (Nat.ne_of_gt height.pos)).2 height.lt

theorem lt_two_pow_log2_succ (h : Nat) : (h : Rat) < 2 ^ (h.log2 + 1) := by
  exact_mod_cast Nat.lt_log2_self (n := h)

/-- From the power of two below a height on, a value is rounded up to the height from half a step below
it on. -/
theorem le_rounded_iff {q : Rat} (height : IsSide h) (low : 2 ^ h.log2 ≤ q) (below : q < h) :
    (h : Rat) ≤ Binary.rounded Format.double q ↔ (h : Rat) - 2 ^ h.log2 / 2 ^ 53 ≤ q := by
  have bits := height.log2_lt
  have above := below.trans (lt_two_pow_log2_succ h)
  generalize h.log2 = e at low above bits ⊢
  have half : (2 : Rat) ^ ((e : Int) - (53 : Nat)) = 2 ^ e / 2 ^ 53 := by
    rw [zpow_sub₀ (by norm_num), zpow_natCast, zpow_natCast]
  rw [← half]
  refine Binary.natCast_le_rounded_iff (e := (e : Int)) (by exact_mod_cast low)
    (by exact_mod_cast above) ?_ ?_
  · show (-1074 : Int) ≤ e + 1 - 53
    omega
  · show (e : Int) + 1 < 53
    omega

/-! ## The ratio of a picture -/

/-- The ratio of a picture to a power of two needs no rounding. -/
theorem roundedRatio_eq (width : IsSide w) (height : IsSide h) (power : (h : Rat) = 2 ^ h.log2) :
    roundedRatio w h = w / h := by
  have widthPos := width.one_le
  have small := width.cast_lt
  have bits := height.log2_lt
  generalize h.log2 = e at power bits
  have quotient : (w : Rat) / h = (w : Int) * 2 ^ (-(e : Int)) := by
    rw [power, zpow_neg, zpow_natCast, Int.cast_natCast, div_eq_mul_inv]
  rw [roundedRatio, quotient]
  refine Binary.rounded_of_steps ?_
  have fine := Binary.stepExponent_le (f := Format.double) (e := 32 - (e : Int))
    (q := (w : Int) * 2 ^ (-(e : Int))) (by push_cast; positivity) ?_ ?_
  · exact fine.trans (by show 32 - (e : Int) - 53 ≤ _; omega)
  · rw [sub_eq_add_neg, zpow_add₀ (by norm_num)]
    refine mul_lt_mul_of_pos_right ?_ (by positivity)
    exact_mod_cast small
  · show (-1074 : Int) ≤ 32 - (e : Int) - 53
    omega

/-- Where the ratio is rounded up, the height lies above a power of two. -/
theorem two_pow_log2_lt (width : IsSide w) (height : IsSide h)
    (up : (w : Rat) < roundedRatio w h * h) : 2 ^ h.log2 < h := by
  have least : 2 ^ h.log2 ≤ h := Nat.log2_self_le (Nat.ne_of_gt height.pos)
  refine lt_of_le_of_ne least fun power => ?_
  have heightPos := height.one_le
  rw [roundedRatio_eq width height (by exact_mod_cast power.symm),
    div_mul_cancel₀ _ (by linarith)] at up
  exact lt_irrefl _ up

/-- The ratio of a picture is rounded up too far for its height: it exceeds the true one by more than
a part of `2 ^ log2 height` in `2 ^ 53` heights. -/
def LosesRow (w h : Nat) : Prop :=
  (ratio w h).toRat * 2 ^ h.log2 < ((ratio w h).toRat * h - w) * 2 ^ 53

instance (w h : Nat) : Decidable (LosesRow w h) := inferInstanceAs (Decidable (_ < _))

/-- **When the height comes back**: the width divided by the rounded ratio is rounded to the height,
or to more, unless the ratio is rounded up too far. -/
theorem height_le_rounded_iff (width : IsSide w) (height : IsSide h) :
    (h : Rat) ≤ Binary.rounded Format.double (w / roundedRatio w h) ↔ ¬ LosesRow w h := by
  have ratioPos := roundedRatio_pos width height
  have widthPos := width.one_le
  have heightPos := height.one_le
  have power : (0 : Rat) < 2 ^ h.log2 := by positivity
  rw [LosesRow, (hasValue_ratio width height).2, not_lt]
  by_cases up : (w : Rat) < roundedRatio w h * h
  · have below : w / roundedRatio w h < h := by
      rw [div_lt_iff₀ ratioPos]
      linarith
    have near := (abs_le.1 (abs_div_roundedRatio_sub_le width height w)).1
    rw [mul_div_cancel_left₀ (h : Rat) (by linarith)] at near
    have low : (2 : Rat) ^ h.log2 ≤ w / roundedRatio w h := by
      have less : (2 : Rat) ^ h.log2 + 1 ≤ h := by exact_mod_cast two_pow_log2_lt width height up
      have small := height.cast_lt
      linarith
    rw [le_rounded_iff height low below, le_div_iff₀ ratioPos]
    constructor <;> intro reached <;> linarith
  · rw [not_lt] at up
    have above : (h : Rat) ≤ w / roundedRatio w h := by
      rw [le_div_iff₀ ratioPos]
      linarith
    have mono := Binary.rounded_mono (f := Format.double) (by linarith) above
    rw [height.rounded_eq] at mono
    have part : 0 ≤ roundedRatio w h * 2 ^ h.log2 := by positivity
    exact iff_of_true mono (by linarith)

/-- A height that is a power of two is kept. -/
theorem two_pow_log2_lt_of_losesRow (width : IsSide w) (height : IsSide h)
    (loses : LosesRow w h) : 2 ^ h.log2 < h := by
  have ratioPos := roundedRatio_pos width height
  have part : 0 < roundedRatio w h * 2 ^ h.log2 := by positivity
  rw [LosesRow, (hasValue_ratio width height).2] at loses
  exact two_pow_log2_lt width height (by linarith)

/-! ## The cut -/

/-- A picture with the ratio of the target has the same computed ratio. -/
theorem roundedRatio_eq_of_same (height : IsSide h) (targetHeight : IsSide th)
    (same : w * th = tw * h) : roundedRatio tw th = roundedRatio w h := by
  have heightPos := height.one_le
  have targetPos := targetHeight.one_le
  have equal : (tw : Rat) / th = w / h := by
    rw [div_eq_div_iff (by linarith) (by linarith)]
    exact_mod_cast same.symm
  rw [roundedRatio, roundedRatio, equal]

/-- The height that is computed is that of the picture, or one less. -/
theorem sideOf_same (width : IsSide w) (height : IsSide h) (targetWidth : IsSide tw)
    (targetHeight : IsSide th) (same : w * th = tw * h) :
    sideOf (Binary.ofNat w / ratio tw th) h = if LosesRow w h then h - 1 else h := by
  have value := hasValue_unscaled width targetWidth targetHeight
  have near := abs_unscaled_sub_le width targetWidth targetHeight
  have ratioPos := roundedRatio_pos targetWidth targetHeight
  have targetPos := targetWidth.one_le
  have small := height.cast_lt
  have nonneg : 0 ≤ Binary.rounded Format.double (w / roundedRatio tw th) :=
    Binary.rounded_nonneg (div_nonneg (Nat.cast_nonneg w) ratioPos.le)
  have exact_ : (w : Rat) * th / tw = h := by
    rw [div_eq_iff (by linarith)]
    exact_mod_cast same.trans (mul_comm tw h)
  have back := height_le_rounded_iff width height
  rw [sideOf_eq height value nonneg]
  rw [exact_, abs_le] at near
  rw [← roundedRatio_eq_of_same height targetHeight same] at back
  have heightPos := height.pos
  split
  next loses =>
    have more : 1 < h :=
      (Nat.one_le_two_pow).trans_lt (two_pow_log2_lt_of_losesRow width height loses)
    have floor : ⌊Binary.rounded Format.double (w / roundedRatio tw th)⌋ = (h : Int) - 1 := by
      have less := not_le.1 (fun reached => back.1 reached loses)
      rw [Int.floor_eq_iff]
      push_cast
      constructor <;> linarith
    rw [floor]
    omega
  next keeps =>
    have floor : (h : Int) ≤ ⌊Binary.rounded Format.double (w / roundedRatio tw th)⌋ := by
      rw [Int.le_floor, Int.cast_natCast]
      exact back.2 keeps
    omega

/-- **When a picture with the shape of the target is kept whole.**  It is, exactly if its ratio is not
rounded up too far for its height; otherwise it loses its last row, and nothing else. -/
theorem same_shape_whole_iff (w h tw th : Nat) (width : IsSide w) (height : IsSide h)
    (targetWidth : IsSide tw) (targetHeight : IsSide th) (same : w * th = tw * h) :
    ((centred w h tw th).isWhole w h = true ↔ ¬ LosesRow w h) ∧
      (LosesRow w h → centred w h tw th = ⟨0, 0, w, h - 1⟩) := by
  have heightPos := height.pos
  have narrow : ¬ ratio tw th < ratio w h := fun wider =>
    (wider_of_lt width height targetWidth targetHeight wider).ne same.symm
  have kept := sideOf_same width height targetWidth targetHeight same
  have region : centred w h tw th =
      ⟨0, (h - if LosesRow w h then h - 1 else h) / 2, w, if LosesRow w h then h - 1 else h⟩ := by
    unfold centred
    dsimp only
    rw [if_neg narrow, kept]
  by_cases loses : LosesRow w h
  · have lost : centred w h tw th = ⟨0, 0, w, h - 1⟩ := by
      rw [region, if_pos loses]
      congr 1
      omega
    have less : h - 1 ≠ h := by omega
    refine ⟨iff_of_false ?_ (not_not.2 loses), fun _ => lost⟩
    rw [lost]
    simp [Region.isWhole, less]
  · refine ⟨iff_of_true ?_ loses, fun lost => absurd lost loses⟩
    rw [region, if_neg loses]
    simp [Region.isWhole]

/-- A picture of half the size of the target is kept whole, and one of its very size need not be. -/
theorem same_shape_whole_phone :
    ((IsSide 540 ∧ IsSide 960 ∧ IsSide 1080 ∧ IsSide 1920 ∧ 540 * 1920 = 1080 * 960) ∧
      (centred 540 960 1080 1920).isWhole 540 960 = true) ∧
    ((IsSide 1152 ∧ IsSide 896 ∧ 1152 * 896 = 1152 * 896) ∧
      centred 1152 896 1152 896 = ⟨0, 0, 1152, 895⟩) := by
  have phone : IsSide 540 ∧ IsSide 960 ∧ IsSide 1080 ∧ IsSide 1920 := by decide
  have photo : IsSide 1152 ∧ IsSide 896 := by decide
  have keeps : ¬ LosesRow 540 960 := by decide +kernel
  have loses : LosesRow 1152 896 := by decide +kernel
  have whole := same_shape_whole_iff 540 960 1080 1920 phone.1 phone.2.1 phone.2.2.1 phone.2.2.2 rfl
  have less := same_shape_whole_iff 1152 896 1152 896 photo.1 photo.2 photo.1 photo.2 rfl
  exact ⟨⟨⟨phone.1, phone.2.1, phone.2.2.1, phone.2.2.2, rfl⟩, whole.1.2 keeps⟩,
    ⟨photo.1, photo.2, rfl⟩, less.2 loses⟩

/-- **A picture of the size of the target can lose a row**: nine sevenths are rounded up too far. -/
theorem not_whole_nine_sevenths :
    IsSide 9 ∧ IsSide 7 ∧ 9 * 7 = 9 * 7 ∧ (centred 9 7 9 7).isWhole 9 7 = false ∧
      centred 9 7 9 7 = ⟨0, 0, 9, 6⟩ := by
  decide +kernel

end SameShape

end Slidecast.Picture
