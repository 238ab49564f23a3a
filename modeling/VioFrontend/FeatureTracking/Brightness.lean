import VioFrontend.FeatureTracking.Singular

/-!
# A common change of brightness

When all intensities are mapped by `I ↦ g * I + o`, the gradients and the time gradient are scaled
by `g`, `S` and `AT * b` by `g ^ 2` and the residuals by `g`. The increments and all decisions of
the solve stay the same, and so do the keypoints.
-/

namespace VioFrontend

open Matrix

variable {g o : ℚ}

/-! ### The intensities -/

/-- The patch with all its values mapped. -/
def Patch.brighten (g o : ℚ) (p : Patch) : Patch := ⟨p.origin, fun n => g * p.data n + o⟩

/-- Every pixel that a patch can read is mapped. On an image that is not empty these are all its
pixels (`Raster.brightened_of_contains`). -/
structure Raster.Brightened (g o : ℚ) (image image' : Raster) : Prop where
  width : image'.width = image.width
  height : image'.height = image.height
  pixel : ∀ x y : ℤ,
    ((image'.pixel (clamp x 0 (image.width - 1)) (clamp y 0 (image.height - 1))).toNat : ℚ)
      = g * (image.pixel (clamp x 0 (image.width - 1)) (clamp y 0 (image.height - 1))).toNat + o

lemma Raster.brightened_of_contains {image image' : Raster} (hwidth : image'.width = image.width)
    (hheight : image'.height = image.height) (hpos : 0 < image.width ∧ 0 < image.height)
    (hpixel : ∀ x y, image.Contains x y →
      ((image'.pixel x y).toNat : ℚ) = g * (image.pixel x y).toNat + o) :
    image.Brightened g o image' := by
  exact ⟨hwidth, hheight, fun x y => hpixel _ _ (Patch.contains_clamp hpos x y)⟩

variable {image image' : Raster} {p previous next : Patch} {incoming : Vec2}

lemma Patch.ofImage_brightened (h : image.Brightened g o image') (x y : ℚ) :
    Patch.ofImage x y image' = (Patch.ofImage x y image).brighten g o := by
  have hbuffer : ∀ startX startY n,
      buffer image' startX startY n = g * buffer image startX startY n + o := by
    intro startX startY n
    simp only [buffer, h.width, h.height]
    exact h.pixel _ _
  rw [ofImage, ofImage, brighten, Patch.mk.injEq]
  refine ⟨rfl, funext fun k => ?_⟩
  simp only [hbuffer]
  ring

lemma nextPatch_brightened (h : image.Brightened g o image') (v : Vec2) :
    nextPatch (p.brighten g o) image' v = (nextPatch p image v).brighten g o :=
  Patch.ofImage_brightened h ..

lemma Patch.dx_brighten (p : Patch) (k : PatchPixel) :
    (p.brighten g o).dx.at k = g * p.dx.at k := by
  simp only [Patch.at, row, dx, inner, brighten]
  split_ifs <;> ring

lemma Patch.dy_brighten (p : Patch) (k : PatchPixel) :
    (p.brighten g o).dy.at k = g * p.dy.at k := by
  simp only [Patch.at, row, dy, inner, brighten]
  split_ifs <;> ring

lemma Patch.dt_brighten (first second : Patch) (k : PatchPixel) :
    ((first.brighten g o).dt (second.brighten g o)).at k = g * (first.dt second).at k := by
  simp only [Patch.at, row, dt, brighten]
  ring

/-! ### The solve -/

lemma gradientMatrix_brighten (p : Patch) :
    (gradientMatrix (p.brighten g o))ᵀ = g • (gradientMatrix p)ᵀ := by
  ext k i
  fin_cases i
  · exact Patch.dx_brighten p k
  · exact Patch.dy_brighten p k

lemma timeColumn_brighten (previous next : Patch) :
    timeColumn (previous.brighten g o) (next.brighten g o) = g • timeColumn previous next := by
  funext k
  simp [timeColumn, Patch.dt_brighten]

lemma residual_brighten (hg : 0 < g) (previous next : Patch) :
    residual (previous.brighten g o) (next.brighten g o) = g * residual previous next := by
  rw [residual, residual, Finset.mul_sum]
  refine Finset.sum_congr rfl fun k _ => ?_
  rw [Patch.dt_brighten, abs_mul, abs_of_pos hg]

lemma structureMatrix_brighten (p : Patch) :
    structureMatrix (p.brighten g o) = (g * g) • structureMatrix p := by
  have hgradient : gradientMatrix (p.brighten g o) = g • gradientMatrix p := by
    rw [← transpose_transpose (gradientMatrix (p.brighten g o)), gradientMatrix_brighten,
      transpose_smul, transpose_transpose]
  rw [structureMatrix_eq_mul, structureMatrix_eq_mul, hgradient, transpose_smul, Matrix.smul_mul,
    Matrix.mul_smul, smul_smul]

lemma determinant_brighten (hg : 0 < g) (hS : determinant (structureMatrix p) ≠ 0) :
    determinant (structureMatrix (p.brighten g o)) ≠ 0 := by
  rw [structureMatrix_brighten, determinant_eq_det, det_smul, ← determinant_eq_det]
  exact mul_ne_zero (by positivity) hS

/-- The increment stays the same. -/
lemma incrementalFlow_brighten (hg : 0 < g) (hS : determinant (structureMatrix previous) ≠ 0) :
    incrementalFlow (structureMatrix (previous.brighten g o))⁻¹ (previous.brighten g o)
        (next.brighten g o)
      = incrementalFlow (structureMatrix previous)⁻¹ previous next := by
  have hdet : ((gradientMatrix previous)ᵀᵀ * (gradientMatrix previous)ᵀ).det ≠ 0 := by
    rw [transpose_transpose, ← structureMatrix_eq_mul, ← determinant_eq_det]
    exact hS
  have hbright : LeastSquares.IsNormalSolution (gradientMatrix (previous.brighten g o))ᵀ
      (timeColumn (previous.brighten g o) (next.brighten g o))
      (incrementalFlow (structureMatrix (previous.brighten g o))⁻¹ (previous.brighten g o)
        (next.brighten g o)).coordinates :=
    isNormalSolution_incrementalFlow (determinant_brighten hg hS)
  rw [gradientMatrix_brighten, timeColumn_brighten,
    LeastSquares.isNormalSolution_smul_iff hg.ne'] at hbright
  exact Vec2.coordinates_injective (hbright.unique hdet (isNormalSolution_incrementalFlow hS))

/-- `FLT_MAX` is larger than every residual that the solve for the patch can come to. -/
def Patch.BelowFltMax (p : Patch) (image : Raster) : Prop :=
  ∀ v, residual p (nextPatch p image v) < fltMax

section

variable (himage : image.Brightened g o image')

include himage

lemma incrementAt_brighten (hg : 0 < g) (hS : determinant (structureMatrix p) ≠ 0)
    (incoming flow : Vec2) :
    incrementAt (p.brighten g o) image' incoming (structureMatrix (p.brighten g o))⁻¹ flow
      = incrementAt p image incoming (structureMatrix p)⁻¹ flow := by
  rw [incrementAt, nextPatch_brightened himage, incrementalFlow_brighten hg hS, incrementAt]

lemma residualAt_brighten (hg : 0 < g) (incoming flow : Vec2) :
    residualAt (p.brighten g o) image' incoming flow = g * residualAt p image incoming flow := by
  rw [residualAt, nextPatch_brightened himage, residual_brighten hg, residualAt]

/-- The residuals are scaled, so they decrease where they did. -/
lemma run_brighten (hg : 0 < g) (hS : determinant (structureMatrix p) ≠ 0)
    (hmax : p.BelowFltMax image) (hmax' : (p.brighten g o).BelowFltMax image') (incoming : Vec2)
    (iterations : ℕ) :
    Descent.run (flowStep (p.brighten g o) image' incoming (structureMatrix (p.brighten g o))⁻¹)
        (residualAt (p.brighten g o) image' incoming)
        (fun flow => exceedsThreshold
          (incrementAt (p.brighten g o) image' incoming (structureMatrix (p.brighten g o))⁻¹ flow))
        iterations fltMax 0
      = Descent.run (flowStep p image incoming (structureMatrix p)⁻¹) (residualAt p image incoming)
          (fun flow => exceedsThreshold (incrementAt p image incoming (structureMatrix p)⁻¹ flow))
          iterations fltMax 0 := by
  have hstep : flowStep (p.brighten g o) image' incoming (structureMatrix (p.brighten g o))⁻¹
      = flowStep p image incoming (structureMatrix p)⁻¹ :=
    funext fun flow => by rw [flowStep, incrementAt_brighten himage hg hS, flowStep]
  rw [hstep]
  simp only [incrementAt_brighten himage hg hS]
  apply Descent.run_congr
  · intro x y
    rw [residualAt_brighten himage hg, residualAt_brighten himage hg]
    exact mul_lt_mul_iff_right₀ hg
  · exact iff_of_true (hmax' _) (hmax _)

lemma levelDisplacement_brighten (hg : 0 < g) (hS : determinant (structureMatrix p) ≠ 0)
    (hmax : p.BelowFltMax image) (hmax' : (p.brighten g o).BelowFltMax image')
    (incoming : Option Vec2) :
    levelDisplacement (p.brighten g o) image' incoming = levelDisplacement p image incoming := by
  cases incoming with
  | none => simp only [levelDisplacement, Option.bind_eq_bind, Option.bind_none]
  | some v =>
    rw [levelDisplacement_eq_run (determinant_brighten hg hS), levelDisplacement_eq_run hS,
      run_brighten himage hg hS hmax hmax']

end

/-! ### Tracking -/

/-- Mapping all patches and all pixels of the next images changes no keypoint whose `S` is
invertible at all levels. -/
theorem trackFeatures_brighten (g o : ℚ) (hg : 0 < g) (patches : PatchPyramid)
    (imagePyramid imagePyramid' : ℕ → Raster)
    (himages : ∀ L < 5, (imagePyramid L).Brightened g o (imagePyramid' L))
    (previousKeypoints nextKeypoints : ℕ → KeyPoint) (n : ℕ)
    (hmax : ∀ k < n, ∀ L < 5, (patches k L).BelowFltMax (imagePyramid L))
    (hmax' : ∀ k < n, ∀ L < 5, ((patches k L).brighten g o).BelowFltMax (imagePyramid' L)) :
    ∀ k < n, (∀ L < 5, determinant (structureMatrix (patches k L)) ≠ 0) →
      trackFeatures lucasKanade (fun k L => (patches k L).brighten g o) imagePyramid'
          previousKeypoints nextKeypoints n k
        = trackFeatures lucasKanade patches imagePyramid previousKeypoints nextKeypoints n k := by
  intro k hk hS
  have hreached : ∀ (patches : PatchPyramid) (L : ℕ),
      Reached lucasKanade patches previousKeypoints k L :=
    fun _ L => reached_of_not_rejects (fun _ => rfl) k L
  cases hstale : (previousKeypoints k).stale with
  | true =>
    rw [trackFeatures_of_stale hk hstale (L := 0) (by omega) (hreached _ 0),
      trackFeatures_of_stale hk hstale (L := 0) (by omega) (hreached _ 0)]
  | false =>
    have hlevel : ∀ L < 5, ∀ incoming,
        levelDisplacement ((patches k L).brighten g o) (imagePyramid' L) incoming
          = levelDisplacement (patches k L) (imagePyramid L) incoming := fun L hL =>
      levelDisplacement_brighten (himages L hL) hg (hS L hL) (hmax k hk L hL) (hmax' k hk L hL)
    have hflow : incomingFlow lucasKanade imagePyramid' (fun L => (patches k L).brighten g o) 4
        = incomingFlow lucasKanade imagePyramid (patches k) 4 := by
      refine incomingFlow_induct
        (P := fun d flow => flow = incomingFlow lucasKanade imagePyramid (patches k) d) rfl
        fun d hd flow hflow => ?_
      rw [hflow, incomingFlow]
      exact congrArg _ (hlevel (4 - d) (by omega) _)
    have hdisplacement :
        featureDisplacement lucasKanade imagePyramid' (fun L => (patches k L).brighten g o)
          = featureDisplacement lucasKanade imagePyramid (patches k) := by
      rw [featureDisplacement, hflow, featureDisplacement]
      exact hlevel 0 (by omega) _
    rw [trackFeatures_of_reached hk hstale fun L _ => hreached _ L,
      trackFeatures_of_reached hk hstale fun L _ => hreached _ L, hdisplacement]
    simp only [trackedKeypoint, (himages 0 (by omega)).width, (himages 0 (by omega)).height]
    rfl

def darkRaster : Raster := ⟨100, 100, fun _ _ => 8⟩

/-- Half the intensities and a bit more: the next image changes from 8 to 9. -/
theorem trackFeatures_brighten_productPatch :
    trackFeatures lucasKanade (fun _ _ => productPatch.brighten (1 / 2) 5)
        (fun _ => ⟨100, 100, fun _ _ => 9⟩) freshAndStale freshAndStale 2 0
      = trackFeatures lucasKanade (fun _ _ => productPatch) (fun _ => darkRaster) freshAndStale
          freshAndStale 2 0 := by
  have hmax : productPatch.BelowFltMax darkRaster := fun v => residual_lt_fltMax ..
  have himage : darkRaster.Brightened (1 / 2) 5 ⟨100, 100, fun _ _ => 9⟩ := by
    refine Raster.brightened_of_contains rfl rfl (by decide) fun x y _ => ?_
    have hvalue : ((9 : UInt8).toNat : ℚ) = 1 / 2 * ((8 : UInt8).toNat : ℚ) + 5 := by decide +kernel
    exact hvalue
  refine trackFeatures_brighten (1 / 2) 5 (by norm_num) (fun _ _ => productPatch)
    (fun _ => darkRaster) (fun _ => ⟨100, 100, fun _ _ => 9⟩) (fun _ _ => himage) freshAndStale
    freshAndStale 2 (fun _ _ _ _ => hmax) (fun _ _ _ _ v => ?_) 0 (by omega)
    fun _ _ => determinant_productRaster
  rw [nextPatch_brightened himage, residual_brighten (by norm_num)]
  have hnonneg : 0 ≤ residual productPatch (nextPatch productPatch darkRaster v) :=
    Finset.sum_nonneg fun k _ => abs_nonneg _
  linarith [hmax v]

end VioFrontend
