import VioFrontend.Image.Basic

/-!
# Patches

A patch is a 7x7 window of an image with a border of one pixel, sampled with bilinear
interpolation; its values are kept row by row in an array of 81 numbers. The gradients are Sobel
responses, which use the border.
-/

namespace VioFrontend

def patchSize : ℕ := 7
def patchSizeWithBorder : ℕ := 9

def clamp (value min max : ℤ) : ℤ :=
  if value < min then min
  else if value > max then max
  else value

/-- A patch; `origin` is the upper left point of the patch itself, not of its border. -/
structure Patch where
  origin : Vec2
  data : ℕ → ℚ

namespace Patch

/-- The 11x11 pixels around a start point; outside the image the border pixels are repeated. -/
def buffer (image : Raster) (startX startY : ℤ) (n : ℕ) : ℚ :=
  let j : ℕ := n / (patchSizeWithBorder + 2)
  let i : ℕ := n % (patchSizeWithBorder + 2)
  let ys := clamp (startY + j - 2) 0 (image.height - 1)
  let xs := clamp (startX + i - 2) 0 (image.width - 1)
  (image.pixel xs ys).toNat

/-- The patch of an image at a start point. -/
def ofImage (x y : ℚ) (image : Raster) : Patch where
  origin := ⟨x, y⟩
  data k :=
    let j := k / patchSizeWithBorder
    let i := k % patchSizeWithBorder
    let startX := ⌊x⌋
    let startY := ⌊y⌋
    let alphaX := |x - startX|
    let alphaY := |y - startY|
    let I := buffer image startX startY ((j + 1) * (patchSizeWithBorder + 2) + i + 1)
    let IXShift := buffer image startX startY ((j + 1) * (patchSizeWithBorder + 2) + i + 2)
    let IYShift := buffer image startX startY ((j + 2) * (patchSizeWithBorder + 2) + i + 1)
    let IXYShift := buffer image startX startY ((j + 2) * (patchSizeWithBorder + 2) + i + 2)
    (1 - alphaX) * (1 - alphaY) * I + alphaX * (1 - alphaY) * IXShift +
      (1 - alphaX) * alphaY * IYShift + alphaX * alphaY * IXYShift

/-- `row(index)[i]`, which counts from after the border. -/
def row (p : Patch) (index i : ℕ) : ℚ := p.data ((index + 1) * patchSizeWithBorder + 1 + i)

/-- Apply `f` at every place of the patch without its border. -/
def inner (f : ℕ → ℕ → ℚ) (k : ℕ) : ℚ :=
  let j := k / patchSizeWithBorder
  let i := k % patchSizeWithBorder
  if (1 ≤ j ∧ j < patchSize + 1) ∧ (1 ≤ i ∧ i < patchSize + 1) then f j i else 0

/-- The x gradient. -/
def dx (source : Patch) : Patch where
  origin := source.origin
  data := inner fun j i =>
    source.data ((j - 1) * patchSizeWithBorder + (i - 1)) * -1 +
    source.data ((j - 1) * patchSizeWithBorder + (i + 1)) * 1 +
    source.data (j * patchSizeWithBorder + (i - 1)) * -2 +
    source.data (j * patchSizeWithBorder + (i + 1)) * 2 +
    source.data ((j + 1) * patchSizeWithBorder + (i - 1)) * -1 +
    source.data ((j + 1) * patchSizeWithBorder + (i + 1)) * 1

/-- The y gradient. -/
def dy (source : Patch) : Patch where
  origin := source.origin
  data := inner fun j i =>
    source.data ((j - 1) * patchSizeWithBorder + (i - 1)) * -1 +
    source.data ((j - 1) * patchSizeWithBorder + i) * -2 +
    source.data ((j - 1) * patchSizeWithBorder + (i + 1)) * -1 +
    source.data ((j + 1) * patchSizeWithBorder + (i - 1)) * 1 +
    source.data ((j + 1) * patchSizeWithBorder + i) * 2 +
    source.data ((j + 1) * patchSizeWithBorder + (i + 1)) * 1

/-- The time gradient. -/
def dt (first second : Patch) : Patch where
  origin := first.origin
  data k := second.data k - first.data k

end Patch

def blackRaster : Raster := ⟨100, 100, fun _ _ => 0⟩

lemma Patch.ofImage_blackRaster (x y : ℚ) :
    Patch.ofImage x y blackRaster = ⟨⟨x, y⟩, fun _ => 0⟩ := by
  simp [Patch.ofImage, Patch.buffer, blackRaster]

/-- Patches by feature and pyramid level. -/
abbrev PatchPyramid := ℕ → ℕ → Patch

def maxNumberOfPatchesInPyramidLevel : ℕ := 74

/-- The conversion of a float to an integer. -/
def truncate (q : ℚ) : ℤ := if 0 ≤ q then ⌊q⌋ else ⌈q⌉

/-- Set the patches of all keypoints that are not stale; `none` is the exit on too many. -/
def PatchPyramid.construct (patches : PatchPyramid) (imagePyramid : ℕ → Raster)
    (patchCentrePoints : ℕ → KeyPoint) (patchCentrePointsSize : ℕ) : Option PatchPyramid :=
  if patchCentrePointsSize > maxNumberOfPatchesInPyramidLevel then none
  else some fun patchIndex pyramidLevel =>
    let centre := patchCentrePoints patchIndex
    if patchIndex < patchCentrePointsSize ∧ pyramidLevel < 5 ∧ centre.stale = false then
      let x := truncate (centre.point.x - (patchSize / 2 : ℕ)) >>> pyramidLevel
      let y := truncate (centre.point.y - (patchSize / 2 : ℕ)) >>> pyramidLevel
      Patch.ofImage x y (imagePyramid pyramidLevel)
    else patches patchIndex pyramidLevel

lemma truncate_intCast (n : ℤ) : truncate (n : ℚ) = n := by
  simp [truncate]

section

variable {patches patches' : PatchPyramid} {imagePyramid : ℕ → Raster}
  {patchCentrePoints : ℕ → KeyPoint} {n : ℕ}

lemma PatchPyramid.construct_eq_none :
    patches.construct imagePyramid patchCentrePoints n = none ↔
      maxNumberOfPatchesInPyramidLevel < n := by
  rw [construct]
  split_ifs with h <;> simp [h]

/-- The patches of a fresh keypoint start three pixels before its point, both coordinates shifted
to the level. -/
lemma PatchPyramid.construct_fresh
    (h : patches.construct imagePyramid patchCentrePoints n = some patches') {k L : ℕ}
    (hk : k < n) (hL : L < 5) (hfresh : (patchCentrePoints k).stale = false) {px py : ℤ}
    (hpoint : (patchCentrePoints k).point = ⟨px, py⟩) :
    patches' k L
      = Patch.ofImage ((px - 3) >>> L : ℤ) ((py - 3) >>> L : ℤ) (imagePyramid L) := by
  have hstart : ∀ p : ℤ, truncate ((p : ℚ) - (patchSize / 2 : ℕ)) = p - 3 := by
    intro p
    rw [← truncate_intCast (p - 3)]
    simp [patchSize]
  rw [construct] at h
  split_ifs at h
  obtain rfl := Option.some.inj h
  simp only [hk, hL, hfresh, and_self, if_true, hpoint, hstart]

/-- A stale keypoint keeps the patches that it had. -/
lemma PatchPyramid.construct_stale
    (h : patches.construct imagePyramid patchCentrePoints n = some patches') {k L : ℕ}
    (hstale : (patchCentrePoints k).stale = true) : patches' k L = patches k L := by
  rw [construct] at h
  split_ifs at h
  obtain rfl := Option.some.inj h
  simp only [hstale, Bool.true_eq_false, and_false, if_false]

end

/-! ### The centre of a patch -/

/-- The point of the image in the middle of a patch. -/
def Patch.centre (p : Patch) : Vec2 :=
  ⟨p.origin.x + (patchSize / 2 : ℕ), p.origin.y + (patchSize / 2 : ℕ)⟩

/-- Where a pixel of the finest level lies at a level of the pyramid. -/
def levelPoint (px py : ℤ) (pyramidLevel : ℕ) : Vec2 :=
  ⟨⌊(px : ℚ) / 2 ^ pyramidLevel⌋, ⌊(py : ℚ) / 2 ^ pyramidLevel⌋⟩

lemma floor_div_two_pow (p : ℤ) (L : ℕ) : ⌊(p : ℚ) / 2 ^ L⌋ = p / 2 ^ L := by
  have hcast : ((2 : ℚ) ^ L) = ((2 ^ L : ℕ) : ℚ) := by norm_cast
  rw [hcast, Rat.floor_intCast_div_natCast]
  norm_cast

/-- Half a patch taken off before the shift and put back after it does not cancel, except at the
finest level. -/
lemma sub_shiftRight_add_eq_iff (p : ℤ) (L : ℕ) : (p - 3) >>> L + 3 = p / 2 ^ L ↔ L = 0 := by
  rw [Int.shiftRight_eq_div_pow]
  cases L with
  | zero => simp
  | succ L =>
    have hpos : (0 : ℤ) < 2 ^ (L + 1) := by positivity
    have htwo : (2 : ℤ) ≤ 2 ^ (L + 1) := by
      calc (2 : ℤ) = 2 ^ 1 := rfl
        _ ≤ 2 ^ (L + 1) := pow_le_pow_right₀ (by norm_num) (by omega)
    have hdrop : p / 2 ^ (L + 1) + -2 ≤ (p - 3) / 2 ^ (L + 1) := by
      rw [← Int.add_mul_ediv_right _ _ hpos.ne']
      exact Int.ediv_le_ediv hpos (by linarith)
    simp only [Nat.cast_pow, Nat.cast_ofNat, Nat.succ_ne_zero, iff_false]
    omega

lemma Patch.centre_ofImage_shiftRight_eq_iff (px py : ℤ) (L : ℕ) (image : Raster) :
    (Patch.ofImage ((px - 3) >>> L : ℤ) ((py - 3) >>> L : ℤ) image).centre = levelPoint px py L ↔
      L = 0 := by
  have hcoordinate : ∀ p : ℤ,
      (((p - 3) >>> L : ℤ) : ℚ) + (patchSize / 2 : ℕ) = ⌊(p : ℚ) / 2 ^ L⌋ ↔ L = 0 := by
    intro p
    rw [floor_div_two_pow, ← sub_shiftRight_add_eq_iff p L, ← Int.cast_inj (α := ℚ), Int.cast_add]
    exact Iff.rfl
  rw [Patch.centre, levelPoint, Vec2.mk.injEq]
  exact (and_congr (hcoordinate px) (hcoordinate py)).trans and_self_iff

/-- A fresh keypoint at a pixel is in the middle of its patch at the finest level, and at no
other. -/
theorem PatchPyramid.construct_centre (patches : PatchPyramid) (imagePyramid : ℕ → Raster)
    (patchCentrePoints : ℕ → KeyPoint) (n : ℕ) (hn : n ≤ maxNumberOfPatchesInPyramidLevel) :
    ∃ patches', patches.construct imagePyramid patchCentrePoints n = some patches' ∧
      ∀ k < n, (patchCentrePoints k).stale = false →
        ∀ px py : ℤ, (patchCentrePoints k).point = ⟨px, py⟩ →
          ∀ L < 5, (patches' k L).centre = levelPoint px py L ↔ L = 0 := by
  obtain ⟨patches', hconstruct⟩ := Option.ne_none_iff_exists'.mp
    (mt PatchPyramid.construct_eq_none.mp hn.not_gt)
  refine ⟨patches', hconstruct, fun k hk hfresh px py hpoint L hL => ?_⟩
  rw [PatchPyramid.construct_fresh hconstruct hk hL hfresh hpoint]
  exact Patch.centre_ofImage_shiftRight_eq_iff px py L _

def blackPyramid (pyramidLevel : ℕ) : Raster :=
  ⟨160 / 2 ^ pyramidLevel, 120 / 2 ^ pyramidLevel, fun _ _ => 0⟩

theorem PatchPyramid.construct_centre_blackPyramid : ∃ patches' : PatchPyramid,
    (patches' 0 0).centre = levelPoint 20 30 0 := by
  obtain ⟨patches', -, h⟩ := PatchPyramid.construct_centre (fun _ _ => ⟨0, fun _ => 0⟩)
    blackPyramid (fun _ => ⟨⟨20, 30⟩, false⟩) 1 (by decide)
  exact ⟨patches', (h 0 one_pos rfl 20 30 rfl 0 (by omega)).mpr rfl⟩

/-- One keypoint at (20, 30), whose patch at level 1 is centred at (11, 16). -/
theorem PatchPyramid.construct_not_centred : ∃ patches' : PatchPyramid,
    PatchPyramid.construct (fun _ _ => ⟨0, fun _ => 0⟩) blackPyramid
        (fun _ => ⟨⟨20, 30⟩, false⟩) 1 = some patches' ∧
      (patches' 0 1).centre = ⟨11, 16⟩ ∧ (patches' 0 1).centre ≠ levelPoint 20 30 1 := by
  refine ⟨_, rfl, ?_, ?_⟩
  · decide +kernel
  · decide +kernel

end VioFrontend
