import Slidecast.Picture.Frame
import Slidecast.Proofs.Sequence

/-!
# What a frame is

A frame of a picture has the size of the slideshow.  The part of the picture that is kept is that of
the centred region, pixel by pixel; in the size of the slideshow, every pixel of it shines through to
the background as far as it is transparent, and every channel is the nearest whole number to the
mixture (`Mixes`).  This leaves no choice: a picture has one frame, and it is the one that is made
(`isFrame_iff`).

A picture is rendered as a frame if it can be read, has a size, and its frame is stored whole.
-/

set_option autoImplicit false

namespace Slidecast.Picture

open Files

/-! ## Backgrounds -/

/-- A channel that shines through to a background is the nearest number to the mixture of both, in
parts of 255. -/
def Mixes (alpha channel background mixed : Nat) : Prop :=
  let mixture := channel * alpha + background * (255 - alpha)
  mixture ≤ 255 * mixed + 127 ∧ 255 * mixed ≤ mixture + 127

theorem mixes_iff {alpha channel background mixed : Nat} :
    Mixes alpha channel background mixed ↔ mixed = Raster.blend alpha channel background := by
  unfold Mixes Raster.blend
  dsimp only
  generalize channel * alpha + background * (255 - alpha) = mixture
  omega

/-- A pixel lies on a background, without transparency. -/
structure LiesOn (background : Colour) (pixel laid : Pixel) : Prop where
  red : Mixes pixel.alpha pixel.red background.red laid.red
  green : Mixes pixel.alpha pixel.green background.green laid.green
  blue : Mixes pixel.alpha pixel.blue background.blue laid.blue
  alpha : laid.alpha = 255

/-! ## Frames -/

/-- The part of a picture that lies in a region. -/
structure IsPart (raster : Raster) (region : Region) (kept : Raster) : Prop where
  width : kept.width = region.width
  height : kept.height = region.height
  pixel : ∀ i j, kept.pixel i j = raster.pixel (region.x + i) (region.y + j)

/-- A frame of a picture. -/
structure IsFrame (room : Darkroom) (style : FrameStyle) (raster frame : Raster) : Prop where
  width : frame.width = style.width
  height : frame.height = style.height
  pixel : ∃ kept, IsPart raster (centred raster.width raster.height style.width style.height) kept ∧
    ∀ i j, LiesOn style.background ((room.resize kept style.width style.height).pixel i j)
      (frame.pixel i j)

variable {room : Darkroom} {style : FrameStyle} {raster frame kept : Raster} {region : Region}

theorem isPart_iff :
    IsPart raster region kept ↔
      kept = raster.window region.x region.y region.width region.height := by
  constructor
  · rintro ⟨width, height, pixel⟩
    have pixels : kept.pixel = fun i j => raster.pixel (region.x + i) (region.y + j) :=
      funext fun i => funext fun j => pixel i j
    cases kept
    cases width
    cases height
    cases pixels
    rfl
  · rintro rfl
    exact ⟨rfl, rfl, fun _ _ => rfl⟩

/-- What is kept of a picture is the part in a region, also if the region is all of it. -/
theorem isPart_kept :
    IsPart raster region
      (if region.isWhole raster.width raster.height then raster
        else raster.window region.x region.y region.width region.height) := by
  split
  next whole =>
    obtain ⟨⟨⟨left, top⟩, width⟩, height⟩ :
        ((region.x = 0 ∧ region.y = 0) ∧ region.width = raster.width) ∧
          region.height = raster.height := by
      simpa [Region.isWhole] using whole
    refine ⟨width.symm, height.symm, fun i j => ?_⟩
    rw [left, top, Nat.zero_add, Nat.zero_add]
  · exact isPart_iff.2 rfl

theorem isFrame_frameOf (room : Darkroom) (style : FrameStyle) (raster : Raster) :
    IsFrame room style raster (frameOf room style raster) where
  width := room.width_resize _ _ _
  height := room.height_resize _ _ _
  pixel := ⟨_, isPart_kept, fun _ _ => ⟨mixes_iff.2 rfl, mixes_iff.2 rfl, mixes_iff.2 rfl, rfl⟩⟩

theorem LiesOn.unique {background : Colour} {pixel laid other : Pixel}
    (lies : LiesOn background pixel laid) (lies' : LiesOn background pixel other) : laid = other := by
  have red := (mixes_iff.1 lies.red).trans (mixes_iff.1 lies'.red).symm
  have green := (mixes_iff.1 lies.green).trans (mixes_iff.1 lies'.green).symm
  have blue := (mixes_iff.1 lies.blue).trans (mixes_iff.1 lies'.blue).symm
  have alpha := lies.alpha.trans lies'.alpha.symm
  cases laid
  cases other
  cases red
  cases green
  cases blue
  cases alpha
  rfl

/-- **A picture has one frame**, and it is the one that is made of it. -/
theorem isFrame_iff : IsFrame room style raster frame ↔ frame = frameOf room style raster := by
  constructor
  · rintro ⟨width, height, kept, part, lies⟩
    obtain ⟨width', height', kept', part', lies'⟩ := isFrame_frameOf room style raster
    have same : kept = kept' := (isPart_iff.1 part).trans (isPart_iff.1 part').symm
    have pixels : frame.pixel = (frameOf room style raster).pixel := by
      funext i j
      rw [← same] at lies'
      exact (lies i j).unique (lies' i j)
    generalize frameOf room style raster = made at *
    cases frame
    cases made
    cases width.trans width'.symm
    cases height.trans height'.symm
    cases pixels
    rfl
  · rintro rfl
    exact isFrame_frameOf room style raster

/-! ## Pictures on a disk -/

/-- There is a picture in the file at a path. -/
def HasPicture (room : Darkroom) (d : Disk) (p : Path) (raster : Raster) : Prop :=
  ∃ content, d.read p = .ok content ∧ room.decode p content = some raster

/-- The picture at a path can be rendered as a frame. -/
def Renders (room : Darkroom) (style : FrameStyle) (d : Disk) (source : Path) (frame : Raster) :
    Prop :=
  ∃ raster, HasPicture room d source raster ∧ raster.width ≠ 0 ∧ raster.height ≠ 0 ∧
    IsFrame room style raster frame ∧ (room.encode style.quality frame).isWhole = true

variable {d d' : Disk} {p source target : Path}

theorem raster?_eq_some_iff : raster? room d p = some raster ↔ HasPicture room d p raster := by
  unfold raster? HasPicture
  rw [Option.bind_eq_some_iff]
  exact exists_congr fun content => and_congr_left' toOption_eq_some_iff

theorem hasPath_of_read {content : Content} (read : d.read p = .ok content) :
    d.hasPath p = true := by
  obtain ⟨found, reached, _⟩ := bind_eq_ok.1 read
  simp [Disk.hasPath, reached, Except.toOption]

/-- **A frame is made** if the picture can be rendered, and the frame can be written. -/
theorem makeFrame_eq_ok_iff :
    makeFrame room style source target d = (.ok (), d') ↔
      ∃ frame, Renders room style d source frame ∧
        d.write target (room.encode style.quality frame).content = .ok d' := by
  unfold makeFrame
  constructor
  · intro made
    split at made
    · split at made
      · cases made
      next raster read =>
        split at made
        · cases made
        next sized =>
          unfold storeFrame at made
          dsimp only at made
          split at made
          · cases made
          next d'' wrote =>
            split at made
            next whole =>
              cases made
              obtain ⟨width, height⟩ := not_or.1 sized
              exact ⟨frameOf room style raster, ⟨raster, raster?_eq_some_iff.1 read, width, height,
                isFrame_frameOf room style raster, whole⟩, wrote⟩
            · cases made
    · cases made
  · rintro ⟨frame, ⟨raster, holds, width, height, isFrame, whole⟩, wrote⟩
    have there : d.hasPath source = true := by
      obtain ⟨content, read, _⟩ := holds
      exact hasPath_of_read read
    rw [isFrame_iff.1 isFrame] at whole wrote
    rw [if_pos there, raster?_eq_some_iff.2 holds]
    simp only [storeFrame, wrote, whole, width, height, or_self, if_false, if_true]

end Slidecast.Picture
