import VioFrontend.Image.Patch

/-!
# A patch as samples of the extended image

The staging buffer starts two pixels before the start point, the values of the patch one pixel
before it, and `row` skips the border once more. The offsets cancel: entry `i` of row `j` is the
bilinear interpolation at `(x + i, y + j)` of the image that is extended by repeating its border.
-/

namespace VioFrontend

open Set

/-! ### Interpolation -/

/-- The point between `a` and `b` at `t`. -/
def interpolate (t a b : ℚ) : ℚ := (1 - t) * a + t * b

lemma interpolate_mem {t a b lo hi : ℚ} (ht : t ∈ Icc 0 1) (ha : a ∈ Icc lo hi)
    (hb : b ∈ Icc lo hi) : interpolate t a b ∈ Icc lo hi := by
  obtain ⟨ht0, ht1⟩ := ht
  obtain ⟨ha, ha'⟩ := ha
  obtain ⟨hb, hb'⟩ := hb
  constructor
  · calc lo = (1 - t) * lo + t * lo := by ring
      _ ≤ (1 - t) * a + t * b := add_le_add (mul_le_mul_of_nonneg_left ha (by linarith))
          (mul_le_mul_of_nonneg_left hb ht0)
  · calc (1 - t) * a + t * b ≤ (1 - t) * hi + t * hi :=
          add_le_add (mul_le_mul_of_nonneg_left ha' (by linarith))
            (mul_le_mul_of_nonneg_left hb' ht0)
      _ = hi := by ring

lemma fract_mem (q : ℚ) : Int.fract q ∈ Icc 0 1 := ⟨Int.fract_nonneg q, (Int.fract_lt_one q).le⟩

namespace Raster

variable (img : Raster)

/-- The image extended by repeating its border pixels. -/
def extended (x y : ℤ) : UInt8 :=
  img.pixel (max 0 (min x (img.width - 1))) (max 0 (min y (img.height - 1)))

/-- The extended image between its pixels. -/
def bilinear (x y : ℚ) : ℚ :=
  interpolate (Int.fract y)
    (interpolate (Int.fract x) (img.extended ⌊x⌋ ⌊y⌋).toNat (img.extended (⌊x⌋ + 1) ⌊y⌋).toNat)
    (interpolate (Int.fract x) (img.extended ⌊x⌋ (⌊y⌋ + 1)).toNat
      (img.extended (⌊x⌋ + 1) (⌊y⌋ + 1)).toNat)

end Raster

/-! ### The staging buffer -/

lemma clamp_eq {value max : ℤ} (hmax : 0 ≤ max) :
    clamp value 0 max = Max.max 0 (min value max) := by
  rw [clamp]
  split_ifs <;> omega

lemma clamp_mem {value max : ℤ} (hmax : 0 ≤ max) :
    0 ≤ clamp value 0 max ∧ clamp value 0 max ≤ max := by
  rw [clamp_eq hmax]
  omega

namespace Patch

/-- `row(index)[i]`, where -1 and 7 are the border. -/
def rowAt (p : Patch) (index i : ℤ) : ℚ :=
  p.data ((index + 1) * patchSizeWithBorder + 1 + i).toNat

/-- The address that entry `n` of the staging buffer is read from. -/
def address (image : Raster) (startX startY : ℤ) (n : ℕ) : ℤ :=
  let j : ℕ := n / (patchSizeWithBorder + 2)
  let i : ℕ := n % (patchSizeWithBorder + 2)
  let ys := clamp (startY + j - 2) 0 (image.height - 1)
  let xs := clamp (startX + i - 2) 0 (image.width - 1)
  ys * image.width + xs

variable {image : Raster}

lemma contains_clamp (hpos : 0 < image.width ∧ 0 < image.height) (x y : ℤ) :
    image.Contains (clamp x 0 (image.width - 1)) (clamp y 0 (image.height - 1)) := by
  obtain ⟨hx, hxw⟩ : 0 ≤ clamp x 0 (image.width - 1) ∧ clamp x 0 (image.width - 1) ≤ _ :=
    clamp_mem (by omega)
  obtain ⟨hy, hyh⟩ : 0 ≤ clamp y 0 (image.height - 1) ∧ clamp y 0 (image.height - 1) ≤ _ :=
    clamp_mem (by omega)
  exact ⟨by omega, by omega⟩

lemma read_address (hpos : 0 < image.width ∧ 0 < image.height) (startX startY : ℤ) (n : ℕ) :
    ∃ v, image.data.read (address image startX startY n) = some v ∧
      buffer image startX startY n = v.toNat :=
  ⟨_, Raster.read_data (contains_clamp hpos _ _), rfl⟩

lemma buffer_eq_extended (hpos : 0 < image.width ∧ 0 < image.height) (startX startY : ℤ) {j i : ℕ}
    (hi : i < patchSizeWithBorder + 2) :
    buffer image startX startY (j * (patchSizeWithBorder + 2) + i)
      = (image.extended (startX + i - 2) (startY + j - 2)).toNat := by
  simp only [patchSizeWithBorder] at hi
  have hdiv : (j * (9 + 2) + i) / (9 + 2) = j := by omega
  have hmod : (j * (9 + 2) + i) % (9 + 2) = i := by omega
  simp only [buffer, patchSizeWithBorder, hdiv, hmod, Raster.extended]
  rw [clamp_eq (by omega), clamp_eq (by omega)]

/-! ### The values -/

/-- A value is interpolated between four entries of the buffer. -/
lemma data_ofImage (x y : ℚ) (image : Raster) (k : ℕ) :
    (ofImage x y image).data k
      = interpolate (Int.fract y)
          (interpolate (Int.fract x)
            (buffer image ⌊x⌋ ⌊y⌋ ((k / 9 + 1) * 11 + k % 9 + 1))
            (buffer image ⌊x⌋ ⌊y⌋ ((k / 9 + 1) * 11 + k % 9 + 2)))
          (interpolate (Int.fract x)
            (buffer image ⌊x⌋ ⌊y⌋ ((k / 9 + 2) * 11 + k % 9 + 1))
            (buffer image ⌊x⌋ ⌊y⌋ ((k / 9 + 2) * 11 + k % 9 + 2))) := by
  have hfract : ∀ q : ℚ, |q - ⌊q⌋| = Int.fract q := fun q => by
    rw [Int.self_sub_floor, abs_of_nonneg (Int.fract_nonneg q)]
  simp only [ofImage, patchSizeWithBorder, hfract, interpolate, Nat.reduceAdd]
  ring

lemma data_ofImage_mem {lo hi : ℚ} {x y : ℚ}
    (hbuffer : ∀ n, buffer image ⌊x⌋ ⌊y⌋ n ∈ Icc lo hi) (k : ℕ) :
    (ofImage x y image).data k ∈ Icc lo hi := by
  rw [data_ofImage]
  exact interpolate_mem (fract_mem y)
    (interpolate_mem (fract_mem x) (hbuffer _) (hbuffer _))
    (interpolate_mem (fract_mem x) (hbuffer _) (hbuffer _))

lemma rowAt_ofImage (hpos : 0 < image.width ∧ 0 < image.height) (x y : ℚ) {j i : ℤ}
    (hj : -1 ≤ j ∧ j ≤ 7) (hi : -1 ≤ i ∧ i ≤ 7) :
    (ofImage x y image).rowAt j i = image.bilinear (x + i) (y + j) := by
  obtain ⟨J, rfl⟩ : ∃ J : ℕ, j = J - 1 := ⟨(j + 1).toNat, by omega⟩
  obtain ⟨I, rfl⟩ : ∃ I : ℕ, i = I - 1 := ⟨(i + 1).toNat, by omega⟩
  have hk : ((((J : ℤ) - 1 + 1) * patchSizeWithBorder + 1 + ((I : ℤ) - 1)).toNat : ℕ)
      = J * 9 + I := by
    simp only [patchSizeWithBorder]
    omega
  have hdiv : (J * 9 + I) / 9 = J := by omega
  have hmod : (J * 9 + I) % 9 = I := by omega
  -- the four entries around pixel `(i, j)` of the extended image
  have hentry : ∀ dj di : ℕ, di ≤ 2 →
      buffer image ⌊x⌋ ⌊y⌋ ((J + dj) * 11 + I + di)
        = (image.extended (⌊x⌋ + I + di - 2) (⌊y⌋ + J + dj - 2)).toNat := by
    intro dj di hdi
    have h := buffer_eq_extended hpos ⌊x⌋ ⌊y⌋ (j := J + dj) (i := I + di)
      (by simp only [patchSizeWithBorder]; omega)
    simp only [patchSizeWithBorder] at h
    push_cast [← add_assoc] at h
    exact h
  have hfloor : ∀ (q : ℚ) (n : ℕ), ⌊q + ((n : ℤ) - 1 : ℤ)⌋ = ⌊q⌋ + n + 1 - 2 := fun q n => by
    rw [Int.floor_add_intCast]
    ring
  have hnext : ∀ (q : ℚ) (n : ℕ), ⌊q⌋ + (n : ℤ) + 1 - 2 + 1 = ⌊q⌋ + n + 2 - 2 := fun q n => by ring
  rw [rowAt, hk, data_ofImage, hdiv, hmod, hentry 1 1 (by omega), hentry 1 2 (by omega),
    hentry 2 1 (by omega), hentry 2 2 (by omega), Raster.bilinear, hfloor, hfloor,
    Int.fract_add_intCast, Int.fract_add_intCast, hnext, hnext]
  rfl

/-- All 81 values of a patch are bilinear samples of the extended image, all reads are inside the
image, and no value leaves the range of its pixels. -/
theorem ofImage_eq_bilinear (image : Raster) (hpos : 0 < image.width ∧ 0 < image.height) (x y : ℚ) :
    (∀ j i : ℤ, -1 ≤ j ∧ j ≤ 7 → -1 ≤ i ∧ i ≤ 7 →
      (ofImage x y image).rowAt j i = image.bilinear (x + i) (y + j)) ∧
    (∀ n < (patchSizeWithBorder + 2) * (patchSizeWithBorder + 2),
      ∃ v, image.data.read (address image ⌊x⌋ ⌊y⌋ n) = some v ∧
        buffer image ⌊x⌋ ⌊y⌋ n = v.toNat) ∧
    ∀ lo hi : ℚ, (∀ u v, image.Contains u v → ((image.pixel u v).toNat : ℚ) ∈ Icc lo hi) →
      ∀ j i : ℤ, (ofImage x y image).rowAt j i ∈ Icc lo hi := by
  refine ⟨fun j i hj hi => rowAt_ofImage hpos x y hj hi, fun n _ => read_address hpos _ _ n,
    fun lo hi hpixels j i => ?_⟩
  exact data_ofImage_mem (fun n => hpixels _ _ (contains_clamp hpos _ _)) _

/-- Half a pixel to the upper left of a checkerboard, the border of the patch included. -/
def checkerboard : Raster := ⟨2, 2, fun x y => if (x + y) % 2 = 0 then 0 else 200⟩

theorem ofImage_eq_bilinear_checkerboard :
    (ofImage (1 / 2) (1 / 2) checkerboard).rowAt (-1) 0 = 100 ∧
      checkerboard.bilinear (1 / 2 + (0 : ℤ)) (1 / 2 + (-1 : ℤ)) = 100 := by
  have h := (ofImage_eq_bilinear checkerboard (by decide) (1 / 2) (1 / 2)).1 (-1) 0 (by omega)
    (by omega)
  have hvalue : checkerboard.bilinear (1 / 2 + (0 : ℤ)) (1 / 2 + (-1 : ℤ)) = 100 := by
    decide +kernel
  exact ⟨h.trans hvalue, hvalue⟩

end Patch

end VioFrontend
