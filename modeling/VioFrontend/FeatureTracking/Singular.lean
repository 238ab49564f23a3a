import VioFrontend.Image.Sampling
import VioFrontend.FeatureTracking.Descent

/-!
# Singular structure matrices

The determinant of `S` is a sum of squares, and it is zero exactly when the gradients at all pixels
of the patch are parallel: on flat patches and on straight edges. The test of `trackFeatures` looks
for a determinant that is not a number, so it accepts such an `S`, and the solve divides by zero.
-/

namespace VioFrontend

/-- The gradients at some two pixels of the patch are not parallel. -/
def HasTwoDirections (p : Patch) : Prop :=
  ∃ i j : PatchPixel, p.dx.at i * p.dy.at j ≠ p.dx.at j * p.dy.at i

lemma two_mul_determinant (p : Patch) :
    2 * determinant (structureMatrix p)
      = ∑ i, ∑ j, (p.dx.at i * p.dy.at j - p.dx.at j * p.dy.at i) ^ 2 := by
  rw [← sum_mul_self_mul_sum_mul_self]
  rfl

lemma determinant_ne_zero_iff {p : Patch} :
    determinant (structureMatrix p) ≠ 0 ↔ HasTwoDirections p := by
  have hnonneg : ∀ i j : PatchPixel, 0 ≤ (p.dx.at i * p.dy.at j - p.dx.at j * p.dy.at i) ^ 2 :=
    fun i j => sq_nonneg _
  have hzero : determinant (structureMatrix p) = 0 ↔
      ∀ i j : PatchPixel, p.dx.at i * p.dy.at j = p.dx.at j * p.dy.at i := by
    calc determinant (structureMatrix p) = 0
        ↔ 2 * determinant (structureMatrix p) = 0 := by simp
      _ ↔ ∀ i, ∑ j, (p.dx.at i * p.dy.at j - p.dx.at j * p.dy.at i) ^ 2 = 0 := by
          rw [two_mul_determinant,
            Finset.sum_eq_zero_iff_of_nonneg fun i _ => Finset.sum_nonneg fun j _ => hnonneg i j]
          simp only [Finset.mem_univ, true_imp_iff]
      _ ↔ ∀ i j : PatchPixel, p.dx.at i * p.dy.at j = p.dx.at j * p.dy.at i := by
          refine forall_congr' fun i => ?_
          rw [Finset.sum_eq_zero_iff_of_nonneg fun j _ => hnonneg i j]
          simp only [Finset.mem_univ, true_imp_iff, sq_eq_zero_iff, sub_eq_zero]
  rw [ne_eq, hzero, HasTwoDirections]
  push Not
  rfl

/-- A patch whose values depend on the column alone is flat or shows a vertical edge. -/
lemma not_hasTwoDirections_of_columns {p : Patch}
    (h : ∀ m n, m % patchSizeWithBorder = n % patchSizeWithBorder → p.data m = p.data n) :
    ¬ HasTwoDirections p := by
  have hdy : ∀ n, p.dy.data n = 0 := by
    intro n
    simp only [Patch.dy, Patch.inner]
    split_ifs with hn
    · have hrows : ∀ i, p.data ((n / patchSizeWithBorder - 1) * patchSizeWithBorder + i)
          = p.data ((n / patchSizeWithBorder + 1) * patchSizeWithBorder + i) := by
        intro i
        apply h
        rw [Nat.mul_add_mod_self_right, Nat.mul_add_mod_self_right]
      rw [hrows, hrows, hrows]
      ring
    · rfl
  rintro ⟨i, j, hij⟩
  simp [Patch.at, Patch.row, hdy] at hij

/-! ### Where the solve is defined -/

variable {previous : Patch} {image : Raster}

/-- With an inverse the solve always has a value. -/
lemma levelDisplacement_isSome {incoming : Option Vec2} (hS : HasTwoDirections previous)
    (hincoming : incoming.isSome = true) :
    (levelDisplacement previous image incoming).isSome = true := by
  obtain ⟨v, rfl⟩ := Option.isSome_iff_exists.mp hincoming
  rw [levelDisplacement, inverse_eq_some (determinant_ne_zero_iff.mpr hS), Option.bind_eq_bind,
    Option.bind_some, minimise_eq_run]
  rfl

variable {imagePyramid : ℕ → Raster} {patch : ℕ → Patch}

lemma featureDisplacement_isSome (hS : ∀ L < 5, HasTwoDirections (patch L)) :
    (featureDisplacement lucasKanade imagePyramid patch).isSome = true := by
  have hflow : (incomingFlow lucasKanade imagePyramid patch 4).isSome = true := by
    refine incomingFlow_induct (P := fun _ flow => flow.isSome = true) rfl fun d hd flow hflow => ?_
    rw [Option.isSome_map]
    exact levelDisplacement_isSome (hS (4 - d) (by omega)) hflow
  exact levelDisplacement_isSome (hS 0 (by omega)) hflow

/-! ### Where it is not -/

lemma Patch.data_ofImage_mem_byte (x y : ℚ) (image : Raster) (k : ℕ) :
    (Patch.ofImage x y image).data k ∈ Set.Icc 0 255 := by
  refine Patch.data_ofImage_mem (fun n => ?_) k
  have hlt : ∀ v : UInt8, (v.toNat : ℚ) ≤ 255 := fun v => by
    exact_mod_cast Nat.lt_succ_iff.mp v.toNat_lt
  exact ⟨Nat.cast_nonneg _, hlt _⟩

/-- The residual of two patches of images is below the first value it is compared with. -/
lemma residual_lt_fltMax (x y x' y' : ℚ) (image image' : Raster) :
    residual (Patch.ofImage x y image) (Patch.ofImage x' y' image') < fltMax := by
  have hterm : ∀ k : PatchPixel,
      |((Patch.ofImage x y image).dt (Patch.ofImage x' y' image')).at k| ≤ 255 := by
    intro k
    obtain ⟨hnonneg, hle⟩ := Patch.data_ofImage_mem_byte x y image
      ((k / patchSize + 1) * patchSizeWithBorder + 1 + k % patchSize)
    obtain ⟨hnonneg', hle'⟩ := Patch.data_ofImage_mem_byte x' y' image'
      ((k / patchSize + 1) * patchSizeWithBorder + 1 + k % patchSize)
    rw [Patch.at, Patch.row, Patch.dt, abs_le]
    constructor <;> linarith
  calc residual (Patch.ofImage x y image) (Patch.ofImage x' y' image')
      ≤ ∑ _k : PatchPixel, (255 : ℚ) := Finset.sum_le_sum fun k _ => hterm k
    _ = patchSize * patchSize * 255 := by simp
    _ < fltMax := by norm_num [patchSize, fltMax]

lemma levelDisplacement_singular {x y : ℚ} {incoming : Option Vec2}
    (hS : ¬ HasTwoDirections (Patch.ofImage x y image)) {image' : Raster} :
    levelDisplacement (Patch.ofImage x y image) image' incoming = none := by
  have hSinv : inverse (structureMatrix (Patch.ofImage x y image)) = none :=
    inverse_eq_none.mpr (not_not.mp (mt determinant_ne_zero_iff.mp hS))
  cases incoming with
  | none => rfl
  | some v =>
    have hflow : minimise (Patch.ofImage x y image) image' v none 50 fltMax 0 = none := by
      rw [minimise.eq_def]
      exact if_pos (residual_lt_fltMax ..)
    rw [levelDisplacement, hSinv, Option.bind_eq_bind, Option.bind_some, hflow]
    rfl

/-- A division by zero at one level reaches the finest level. -/
lemma featureDisplacement_singular (hpatch : ∀ L < 5, ∃ x y img, patch L = Patch.ofImage x y img)
    {L : ℕ} (hL : L < 5) (hS : ¬ HasTwoDirections (patch L)) :
    featureDisplacement lucasKanade imagePyramid patch = none := by
  have hlevel : ∀ incoming, levelDisplacement (patch L) (imagePyramid L) incoming = none := by
    obtain ⟨x, y, img, hpatch⟩ := hpatch L hL
    rw [hpatch] at hS ⊢
    exact fun incoming => levelDisplacement_singular hS
  rcases Nat.eq_zero_or_pos L with rfl | hpos
  · exact hlevel _
  · have hflow : ∀ d, 5 - L ≤ d → incomingFlow lucasKanade imagePyramid patch d = none := by
      intro d hd
      induction d, hd using Nat.le_induction with
      | base =>
        have hfour : 4 - (4 - L) = L := by omega
        rw [show 5 - L = (4 - L) + 1 by omega, incomingFlow, hfour]
        exact congrArg _ (hlevel _)
      | succ d hd ih => rw [incomingFlow, ih]; rfl
    rw [featureDisplacement, hflow 4 (by omega)]
    rfl

/-- A singular `S` at any level puts the feature at the origin, where it is not stale. -/
theorem trackFeatures_of_singular {patches : PatchPyramid} {previousKeypoints : ℕ → KeyPoint}
    {nextKeypoints : ℕ → KeyPoint} {n k L : ℕ} (hk : k < n)
    (hfresh : (previousKeypoints k).stale = false) (hcontains : (imagePyramid 0).Contains 0 0)
    (hpatch : ∀ L < 5, ∃ x y img, patches k L = Patch.ofImage x y img) (hL : L < 5)
    (hS : ¬ HasTwoDirections (patches k L)) :
    trackFeatures lucasKanade patches imagePyramid previousKeypoints nextKeypoints n k
      = ⟨⟨0, 0⟩, false⟩ := by
  have hbounds : ¬ ((0 : ℤ) < 0 ∨ (0 : ℤ) < 0 ∨ 0 > ((imagePyramid 0).width : ℤ) - 1 ∨
      0 > ((imagePyramid 0).height : ℤ) - 1) := by
    obtain ⟨⟨-, hwidth⟩, -, hheight⟩ := hcontains
    omega
  rw [trackFeatures_of_reached hk hfresh fun L _ => reached_of_not_rejects (fun _ => rfl) k L,
    featureDisplacement_singular hpatch hL hS]
  simp only [trackedKeypoint, roundCoordinate, Option.map_none, Option.getD_none, Int.cast_zero]
  exact congrArg (KeyPoint.mk _) (decide_eq_false hbounds)

/-! ### The guard -/

/-- Every feature with a determinant of zero at a level is rejected there, and no keypoint that is
reported as not stale comes from a division by zero. -/
def DivisionFree (patches : PatchPyramid) (imagePyramid : ℕ → Raster)
    (previousKeypoints nextKeypoints : ℕ → KeyPoint) (n : ℕ) : Prop :=
  ∀ k < n, (previousKeypoints k).stale = false →
    (∀ L < 5, determinant (structureMatrix (patches k L)) = 0 →
      lucasKanade.rejects (patches k L) = true) ∧
    ((trackFeatures lucasKanade patches imagePyramid previousKeypoints nextKeypoints n k).stale
        = false →
      (featureDisplacement lucasKanade imagePyramid (patches k)).isSome = true)

theorem divisionFree_iff (patches : PatchPyramid) (imagePyramid : ℕ → Raster)
    (previousKeypoints nextKeypoints : ℕ → KeyPoint) (n : ℕ) :
    DivisionFree patches imagePyramid previousKeypoints nextKeypoints n ↔
      ∀ k < n, (previousKeypoints k).stale = false →
        ∀ L < 5, HasTwoDirections (patches k L) := by
  constructor
  · intro h k hk hfresh L hL
    by_contra hS
    have hzero := not_not.mp (mt determinant_ne_zero_iff.mp hS)
    have hrejects := (h k hk hfresh).1 L hL hzero
    simp [lucasKanade, lucasKanadeRejecting, isUndefined] at hrejects
  · intro h k hk hfresh
    refine ⟨fun L hL hzero => ?_, fun _ => featureDisplacement_isSome (h k hk hfresh)⟩
    exact absurd hzero (determinant_ne_zero_iff.mpr (h k hk hfresh L hL))

/-- One feature on a black image. -/
theorem not_divisionFree_blackRaster :
    ¬ DivisionFree (fun _ _ => Patch.ofImage 0 0 blackRaster) (fun _ => blackRaster)
      (fun _ => ⟨⟨3, 3⟩, false⟩) (fun _ => ⟨⟨3, 3⟩, false⟩) 1 := by
  have hS : ¬ HasTwoDirections (Patch.ofImage 0 0 blackRaster) := by
    apply not_hasTwoDirections_of_columns
    intro m n _
    rw [Patch.ofImage_blackRaster]
  have hpatch : ∀ L < 5, ∃ x y img,
      (fun _ => Patch.ofImage 0 0 blackRaster : ℕ → Patch) L = Patch.ofImage x y img :=
    fun L _ => ⟨0, 0, blackRaster, rfl⟩
  have htracked : trackFeatures lucasKanade (fun _ _ => Patch.ofImage 0 0 blackRaster)
      (fun _ => blackRaster) (fun _ => ⟨⟨3, 3⟩, false⟩) (fun _ => ⟨⟨3, 3⟩, false⟩) 1 0
        = ⟨⟨0, 0⟩, false⟩ :=
    trackFeatures_of_singular one_pos rfl (by decide) hpatch (L := 0) (by omega) hS
  have hundefined : featureDisplacement lucasKanade (fun _ => blackRaster)
      (fun _ => Patch.ofImage 0 0 blackRaster) = none :=
    featureDisplacement_singular hpatch (L := 0) (by omega) hS
  intro h
  have hdefined := (h 0 one_pos rfl).2 (congrArg KeyPoint.stale htracked)
  rw [hundefined] at hdefined
  cases hdefined

end VioFrontend
