import VioFrontend.FeatureTracking.LeastSquares

/-!
# The scale of the gradients

On a bilinear intensity function the Sobel kernels give exactly eight times the intensity
gradient per pixel. The time gradient has no such factor, so the increment is one eighth of the
displacement that the next patch shows.
-/

namespace VioFrontend

open Matrix

/-- The intensity `a + b * x + c * y + e * x * y`. -/
structure Bilinear where
  a : ℚ
  b : ℚ
  c : ℚ
  e : ℚ

namespace Bilinear

variable (I : Bilinear)

def value (x y : ℚ) : ℚ := I.a + I.b * x + I.c * y + I.e * x * y

/-- The x derivative. -/
def dx (p : Vec2) : ℚ := I.b + I.e * p.y

/-- The y derivative. -/
def dy (p : Vec2) : ℚ := I.c + I.e * p.x

end Bilinear

namespace Patch

/-- The point of the image at a pixel of the patch. -/
def point (p : Patch) (k : PatchPixel) : Vec2 :=
  ⟨p.origin.x + (k % patchSize : ℕ), p.origin.y + (k / patchSize : ℕ)⟩

/-- The values of the patch and of its border are samples of an intensity function. -/
def Samples (p : Patch) (I : Bilinear) : Prop :=
  ∀ j < patchSizeWithBorder, ∀ i < patchSizeWithBorder,
    p.data (j * patchSizeWithBorder + i) = I.value (p.origin.x + i - 1) (p.origin.y + j - 1)

/-- To first order, `next` shows what `previous` shows, displaced by `v`. -/
def Displaced (previous next : Patch) (I : Bilinear) (v : Vec2) : Prop :=
  ∀ k : PatchPixel, next.at k
    = previous.at k - (I.dx (previous.point k) * v.x + I.dy (previous.point k) * v.y)

/-- A gradient patch at a pixel. -/
lemma inner_at (origin : Vec2) (f : ℕ → ℕ → ℚ) (k : PatchPixel) :
    (⟨origin, inner f⟩ : Patch).at k = f (k / patchSize + 1) (k % patchSize + 1) := by
  have hj : (k : ℕ) / 7 < 7 := Nat.div_lt_of_lt_mul k.isLt
  have hi : (k : ℕ) % 7 < 7 := Nat.mod_lt _ (by decide)
  have hdiv : ((k / 7 + 1) * 9 + 1 + k % 7 : ℕ) / 9 = k / 7 + 1 := by omega
  have hmod : ((k / 7 + 1) * 9 + 1 + k % 7 : ℕ) % 9 = k % 7 + 1 := by omega
  simp only [Patch.at, row, inner, patchSize, patchSizeWithBorder, hdiv, hmod]
  exact if_pos (by omega)

variable {p : Patch} {I : Bilinear}

/-- The values around a pixel. -/
lemma Samples.near (h : p.Samples I) (k : PatchPixel) (dj di : Fin 3) :
    p.data ((k / patchSize + dj) * patchSizeWithBorder + (k % patchSize + di))
      = I.value ((p.point k).x + di - 1) ((p.point k).y + dj - 1) := by
  have hj : (k : ℕ) / patchSize < patchSize := Nat.div_lt_of_lt_mul k.isLt
  have hi : (k : ℕ) % patchSize < patchSize := Nat.mod_lt _ (by decide)
  simp only [patchSize] at hj hi
  rw [h _ (by simp only [patchSize, patchSizeWithBorder]; omega) _
    (by simp only [patchSize, patchSizeWithBorder]; omega)]
  simp only [point, Nat.cast_add, add_assoc]

lemma dx_at (h : p.Samples I) (k : PatchPixel) : p.dx.at k = 8 * I.dx (p.point k) := by
  rw [dx, inner_at]
  simp only [Nat.add_sub_cancel]
  have h00 := h.near k 0 0
  have h02 := h.near k 0 2
  have h10 := h.near k 1 0
  have h12 := h.near k 1 2
  have h20 := h.near k 2 0
  have h22 := h.near k 2 2
  simp only [Fin.val_zero, Fin.val_one, Fin.val_two, Nat.add_zero] at h00 h02 h10 h12 h20 h22
  rw [h00, h02, h10, h12, h20, h22]
  simp only [Bilinear.value, Bilinear.dx]
  push_cast
  ring

lemma dy_at (h : p.Samples I) (k : PatchPixel) : p.dy.at k = 8 * I.dy (p.point k) := by
  rw [dy, inner_at]
  simp only [Nat.add_sub_cancel]
  have h00 := h.near k 0 0
  have h01 := h.near k 0 1
  have h02 := h.near k 0 2
  have h20 := h.near k 2 0
  have h21 := h.near k 2 1
  have h22 := h.near k 2 2
  simp only [Fin.val_zero, Fin.val_one, Fin.val_two, Nat.add_zero] at h00 h01 h02 h20 h21 h22
  rw [h00, h01, h02, h20, h21, h22]
  simp only [Bilinear.value, Bilinear.dy]
  push_cast
  ring

end Patch

/-- One eighth of the displacement solves the system exactly. -/
lemma mulVec_eighth {previous next : Patch} {I : Bilinear} {v : Vec2}
    (hsamples : previous.Samples I) (hnext : previous.Displaced next I v) :
    (gradientMatrix previous)ᵀ *ᵥ ((1 / 8 : ℚ) • v).coordinates = timeColumn previous next := by
  funext k
  have htime : timeColumn previous next k
      = I.dx (previous.point k) * v.x + I.dy (previous.point k) * v.y := by
    have hdt : (previous.dt next).at k = next.at k - previous.at k := rfl
    rw [timeColumn, hdt, hnext k]
    ring
  have hrow : ((gradientMatrix previous)ᵀ *ᵥ ((1 / 8 : ℚ) • v).coordinates) k
      = previous.dx.at k * (1 / 8 * v.x) + previous.dy.at k * (1 / 8 * v.y) := by
    simp [mulVec, dotProduct, gradientMatrix, Vec2.coordinates]
  rw [hrow, htime, Patch.dx_at hsamples, Patch.dy_at hsamples]
  ring

/-- The increment is one eighth of the displacement, so it is the displacement only when there is
none. -/
theorem incrementalFlow_eq_displacement_iff (I : Bilinear) (previous next : Patch) (v : Vec2)
    (hsamples : previous.Samples I) (hS : determinant (structureMatrix previous) ≠ 0)
    (hnext : previous.Displaced next I v) :
    ∃ Sinv, inverse (structureMatrix previous) = some Sinv ∧
      incrementalFlow Sinv previous next = (1 / 8 : ℚ) • v ∧
      (incrementalFlow Sinv previous next = v ↔ v = 0) := by
  have hdet : ((gradientMatrix previous)ᵀᵀ * (gradientMatrix previous)ᵀ).det ≠ 0 := by
    rw [transpose_transpose, ← structureMatrix_eq_mul, ← determinant_eq_det]
    exact hS
  have hflow : incrementalFlow (structureMatrix previous)⁻¹ previous next = (1 / 8 : ℚ) • v :=
    Vec2.coordinates_injective
      ((isNormalSolution_incrementalFlow hS).eq_of_mulVec_eq hdet (mulVec_eighth hsamples hnext))
  refine ⟨_, inverse_eq_some hS, hflow, ?_⟩
  rw [hflow]
  constructor
  · intro h
    have hx : 1 / 8 * v.x = v.x := congrArg Vec2.x h
    have hy : 1 / 8 * v.y = v.y := congrArg Vec2.y h
    ext
    · exact (by linarith : v.x = 0)
    · exact (by linarith : v.y = 0)
  · rintro rfl
    ext <;> simp

namespace Bilinear

/-- The patch of an intensity function, with its origin at zero. -/
def patch (I : Bilinear) : Patch :=
  ⟨0, fun n => I.value ((n % patchSizeWithBorder : ℕ) - 1) ((n / patchSizeWithBorder : ℕ) - 1)⟩

/-- The patch after a displacement, to first order. -/
def displacedPatch (I : Bilinear) (v : Vec2) : Patch :=
  ⟨0, fun n =>
    let p : Vec2 :=
      ⟨(n % patchSizeWithBorder : ℕ) - 1, (n / patchSizeWithBorder : ℕ) - 1⟩
    I.value p.x p.y - (I.dx p * v.x + I.dy p * v.y)⟩

lemma samples_patch (I : Bilinear) : I.patch.Samples I := by
  intro j hj i hi
  simp only [patchSizeWithBorder] at hj hi
  have hdiv : (j * 9 + i) / 9 = j := by omega
  have hmod : (j * 9 + i) % 9 = i := by omega
  simp only [patch, patchSizeWithBorder, hdiv, hmod, Vec2.zero_x, Vec2.zero_y, zero_add]

lemma displaced_patch (I : Bilinear) (v : Vec2) :
    I.patch.Displaced (I.displacedPatch v) I v := by
  intro k
  have hdiv : ((k / 7 + 1) * 9 + 1 + k % 7 : ℕ) / 9 = k / 7 + 1 := by omega
  have hmod : ((k / 7 + 1) * 9 + 1 + k % 7 : ℕ) % 9 = k % 7 + 1 := by omega
  simp only [Patch.at, Patch.row, patch, displacedPatch, Patch.point, patchSize,
    patchSizeWithBorder, hdiv, hmod, Vec2.zero_x, Vec2.zero_y, zero_add]
  push_cast
  simp only [add_sub_cancel_right]

end Bilinear

/-- The intensity `20 + x * y`. -/
def saddle : Bilinear := ⟨20, 0, 0, 1⟩

lemma determinant_saddle : determinant (structureMatrix saddle.patch) ≠ 0 := by
  decide +kernel

/-- The increment is a quarter of a pixel and an eighth of one, and not the displacement. -/
theorem incrementalFlow_eq_displacement_iff_saddle :
    ∃ Sinv, inverse (structureMatrix saddle.patch) = some Sinv ∧
      incrementalFlow Sinv saddle.patch (saddle.displacedPatch ⟨2, 1⟩) = (1 / 8 : ℚ) • ⟨2, 1⟩ ∧
      incrementalFlow Sinv saddle.patch (saddle.displacedPatch ⟨2, 1⟩) ≠ ⟨2, 1⟩ := by
  obtain ⟨Sinv, hSinv, hflow, hiff⟩ := incrementalFlow_eq_displacement_iff saddle saddle.patch
    (saddle.displacedPatch ⟨2, 1⟩) ⟨2, 1⟩ saddle.samples_patch determinant_saddle
    (saddle.displaced_patch ⟨2, 1⟩)
  have hne : (⟨2, 1⟩ : Vec2) ≠ 0 := fun h => absurd (congrArg Vec2.x h) (by decide)
  exact ⟨Sinv, hSinv, hflow, fun h => hne (hiff.mp h)⟩

/-- A displacement by one pixel to the right; the increment is an eighth of a pixel. All values are
grey levels. -/
theorem incrementalFlow_saddle :
    saddle.patch.Samples saddle ∧ determinant (structureMatrix saddle.patch) ≠ 0 ∧
      saddle.patch.Displaced (saddle.displacedPatch ⟨1, 0⟩) saddle ⟨1, 0⟩ ∧
      (∀ n < patchSizeWithBorder * patchSizeWithBorder,
        (0 ≤ saddle.patch.data n ∧ saddle.patch.data n ≤ 255) ∧
          0 ≤ (saddle.displacedPatch ⟨1, 0⟩).data n ∧
          (saddle.displacedPatch ⟨1, 0⟩).data n ≤ 255) ∧
      (inverse (structureMatrix saddle.patch)).map (fun Sinv =>
        incrementalFlow Sinv saddle.patch (saddle.displacedPatch ⟨1, 0⟩)) = some ⟨1 / 8, 0⟩ := by
  refine ⟨saddle.samples_patch, determinant_saddle, saddle.displaced_patch _, ?_, ?_⟩
  · decide +kernel
  · decide +kernel

end VioFrontend
