import VioFrontend.Image.BlurResult

/-!
# A brighter image

An offset on all pixels goes through the pyramid: the floor average of a block takes any offset,
and the shifts of the kernel take a multiple of four. So all levels of the brighter image are
brighter by the same offset, as long as no pixel leaves the range of a byte.
-/

namespace VioFrontend

namespace Raster

/-- Every pixel of the second image is brighter by `c`. -/
structure BrighterBy (c : ℕ) (img img' : Raster) : Prop where
  width : img'.width = img.width
  height : img'.height = img.height
  pixel : ∀ x y, img.Contains x y → (img'.pixel x y).toNat = (img.pixel x y).toNat + c

/-- No pixel is darker than `lo` or brighter than `hi`. -/
def Between (lo hi : ℕ) (img : Raster) : Prop :=
  ∀ x y, img.Contains x y → lo ≤ (img.pixel x y).toNat ∧ (img.pixel x y).toNat ≤ hi

/-- The image with an offset on all pixels. -/
def brighter (c : ℕ) (img : Raster) : Raster where
  width := img.width
  height := img.height
  pixel x y := UInt8.ofNat ((img.pixel x y).toNat + c)

variable {img img' : Raster} {c lo hi : ℕ}

lemma brighterBy_brighter (h : img.Between lo hi) (hc : hi + c ≤ 255) :
    img.BrighterBy c (img.brighter c) := by
  refine ⟨rfl, rfl, fun x y hin => ?_⟩
  have hpixel := (h x y hin).2
  exact UInt8.toNat_ofNat_of_lt' (by simp only [UInt8.size]; omega)

lemma Between.mono {lo' hi' : ℕ} (h : img.Between lo hi) (hlo : lo' ≤ lo) (hhi : hi ≤ hi') :
    img.Between lo' hi' := fun x y hin =>
  ⟨hlo.trans (h x y hin).1, (h x y hin).2.trans hhi⟩

lemma BrighterBy.between (h : img.BrighterBy c img') (hbetween : img.Between lo hi) :
    img'.Between (lo + c) (hi + c) := by
  intro x y hin
  have hin : img.Contains x y := by
    rw [Contains, ← h.width, ← h.height]
    exact hin
  rw [h.pixel x y hin]
  exact ⟨Nat.add_le_add_right (hbetween x y hin).1 c, Nat.add_le_add_right (hbetween x y hin).2 c⟩

/-! ### Downsampling -/

/-- The sum of the block that a pixel of the downsampled image is the average of. -/
def blockSum (img : Raster) (x y : ℤ) : ℕ :=
  (img.pixel (2 * x) (2 * y)).toNat + (img.pixel (2 * x + 1) (2 * y)).toNat +
    (img.pixel (2 * x) (2 * y + 1)).toNat + (img.pixel (2 * x + 1) (2 * y + 1)).toNat

lemma toNat_downsample_pixel (img : Raster) (x y : ℤ) :
    (img.downsample.pixel x y).toNat = img.blockSum x y / 4 := by
  have h00 := (img.pixel (2 * x) (2 * y)).toNat_lt
  have h10 := (img.pixel (2 * x + 1) (2 * y)).toNat_lt
  have h01 := (img.pixel (2 * x) (2 * y + 1)).toNat_lt
  have h11 := (img.pixel (2 * x + 1) (2 * y + 1)).toNat_lt
  exact UInt8.toNat_ofNat_of_lt' (by simp only [UInt8.size]; omega)

/-- The block of a pixel lies inside the image. -/
lemma contains_block {x y : ℤ} (h : img.downsample.Contains x y) :
    img.Contains (2 * x) (2 * y) ∧ img.Contains (2 * x + 1) (2 * y) ∧
      img.Contains (2 * x) (2 * y + 1) ∧ img.Contains (2 * x + 1) (2 * y + 1) := by
  simp only [Contains, downsample] at h ⊢
  omega

lemma BrighterBy.downsample (h : img.BrighterBy c img') :
    img.downsample.BrighterBy c img'.downsample := by
  refine ⟨?_, ?_, fun x y hin => ?_⟩
  · simp only [Raster.downsample, h.width]
  · simp only [Raster.downsample, h.height]
  · obtain ⟨h00, h10, h01, h11⟩ := contains_block hin
    rw [toNat_downsample_pixel, toNat_downsample_pixel, blockSum, blockSum, h.pixel _ _ h00,
      h.pixel _ _ h10, h.pixel _ _ h01, h.pixel _ _ h11]
    omega

lemma Between.downsample (h : img.Between lo hi) : img.downsample.Between lo hi := by
  intro x y hin
  obtain ⟨h00, h10, h01, h11⟩ := contains_block hin
  have h00 := h _ _ h00
  have h10 := h _ _ h10
  have h01 := h _ _ h01
  have h11 := h _ _ h11
  rw [toNat_downsample_pixel, blockSum]
  omega

lemma BrighterBy.halved (h : img.BrighterBy c img') (i : ℕ) :
    (img.halved i).BrighterBy c (img'.halved i) := by
  induction i with
  | zero => exact h
  | succ i ih => exact ih.downsample

lemma Between.halved (h : img.Between lo hi) (i : ℕ) : (img.halved i).Between lo hi := by
  induction i with
  | zero => exact h
  | succ i ih => exact ih.downsample

end Raster

/-! ### Blurring -/

/-- An offset that is a multiple of four goes through the shifts. -/
lemma kernelSum_add {c : ℕ} (hc : 4 ∣ c) (p q r : ℕ) :
    kernelSum (p + c) (q + c) (r + c) = kernelSum p q r + c := by
  simp only [kernelSum, Nat.shiftRight_eq_div_pow]
  omega

/-- The shifts lose nothing of a lower bound that is a multiple of four. -/
lemma kernelSum_between {lo hi p q r : ℕ} (hlo : 4 ∣ lo) (hp : lo ≤ p ∧ p ≤ hi)
    (hq : lo ≤ q ∧ q ≤ hi) (hr : lo ≤ r ∧ r ≤ hi) :
    lo ≤ kernelSum p q r ∧ kernelSum p q r ≤ hi := by
  simp only [kernelSum, Nat.shiftRight_eq_div_pow]
  omega

namespace Raster

variable {img img' : Raster} {c lo hi : ℕ}

/-- The pixel is not on the border. -/
def Inside (img : Raster) (x y : ℤ) : Prop :=
  (1 ≤ x ∧ x + 1 < img.width) ∧ (1 ≤ y ∧ y + 1 < img.height)

/-- The pixels of the rows that the kernel at an inner pixel reads. -/
lemma Inside.contains {x y : ℤ} (h : img.Inside x y) {j : ℤ} (hj : y - 1 ≤ j ∧ j ≤ y + 1) :
    img.Contains (x - 1) j ∧ img.Contains x j ∧ img.Contains (x + 1) j := by
  simp only [Inside, Contains] at h ⊢
  omega

lemma toNat_blur_pixel {x y : ℤ} (h : img.Inside x y) :
    (img.blur.pixel x y).toNat = img.vertical x y := by
  have hpixel : img.blur.pixel x y = UInt8.ofNat (img.vertical x y) := if_pos h
  have hsize : img.vertical x y < UInt8.size := (img.vertical_le x y).trans_lt (by decide)
  rw [hpixel]
  exact UInt8.toNat_ofNat_of_lt' hsize

lemma blur_pixel_of_not_inside {x y : ℤ} (h : ¬ img.Inside x y) :
    img.blur.pixel x y = img.pixel x y := if_neg h

lemma BrighterBy.horizontal (h : img.BrighterBy c img') (hc : 4 ∣ c) {x y j : ℤ}
    (hin : img.Inside x y) (hj : y - 1 ≤ j ∧ j ≤ y + 1) :
    img'.horizontal x j = img.horizontal x j + c := by
  obtain ⟨hleft, hmiddle, hright⟩ := hin.contains hj
  rw [Raster.horizontal, h.pixel _ _ hleft, h.pixel _ _ hmiddle, h.pixel _ _ hright,
    kernelSum_add hc, Raster.horizontal]

lemma BrighterBy.vertical (h : img.BrighterBy c img') (hc : 4 ∣ c) {x y : ℤ}
    (hin : img.Inside x y) : img'.vertical x y = img.vertical x y + c := by
  rw [Raster.vertical, h.horizontal hc hin (j := y - 1) (by omega),
    h.horizontal hc hin (j := y) (by omega), h.horizontal hc hin (j := y + 1) (by omega),
    kernelSum_add hc, Raster.vertical]

lemma BrighterBy.blur (h : img.BrighterBy c img') (hc : 4 ∣ c) :
    img.blur.BrighterBy c img'.blur := by
  refine ⟨h.width, h.height, fun x y hin => ?_⟩
  have hinside : img'.Inside x y ↔ img.Inside x y := by
    rw [Inside, Inside, h.width, h.height]
  by_cases hxy : img.Inside x y
  · rw [toNat_blur_pixel hxy, toNat_blur_pixel (hinside.mpr hxy), h.vertical hc hxy]
  · rw [blur_pixel_of_not_inside hxy, blur_pixel_of_not_inside (hinside.not.mpr hxy),
      h.pixel x y hin]

lemma Between.horizontal (h : img.Between lo hi) (hlo : 4 ∣ lo) {x y j : ℤ}
    (hin : img.Inside x y) (hj : y - 1 ≤ j ∧ j ≤ y + 1) :
    lo ≤ img.horizontal x j ∧ img.horizontal x j ≤ hi := by
  obtain ⟨hleft, hmiddle, hright⟩ := hin.contains hj
  exact kernelSum_between hlo (h _ _ hleft) (h _ _ hmiddle) (h _ _ hright)

lemma Between.blur (h : img.Between lo hi) (hlo : 4 ∣ lo) : img.blur.Between lo hi := by
  intro x y hin
  by_cases hxy : img.Inside x y
  · rw [toNat_blur_pixel hxy]
    exact kernelSum_between hlo (h.horizontal hlo hxy (by omega)) (h.horizontal hlo hxy (by omega))
      (h.horizontal hlo hxy (by omega))
  · rw [blur_pixel_of_not_inside hxy]
    exact h x y hin

/-! ### The levels -/

/-- All levels of the brighter image are brighter by the same offset. -/
lemma BrighterBy.level (h : img.BrighterBy c img') (hc : 4 ∣ c) (i : ℕ) :
    (img.level i).BrighterBy c (img'.level i) := (h.halved i).blur hc

lemma BrighterBy.levelsEnd (h : img.BrighterBy c img') (n : ℕ) :
    img'.levelsEnd n = img.levelsEnd n := by
  induction n with
  | zero => rfl
  | succ n ih =>
    rw [Raster.levelsEnd, ih, (h.halved (n + 1)).width, (h.halved (n + 1)).height,
      Raster.levelsEnd]

lemma Between.level (h : img.Between lo hi) (hlo : 4 ∣ lo) (i : ℕ) :
    (img.level i).Between lo hi := (h.halved i).blur hlo

end Raster

end VioFrontend
