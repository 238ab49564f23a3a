import VioFrontend.FeatureTracking.Lanes

/-!
# Tracking an image onto itself

When the patches are constructed from the pyramid that is tracked into, the patch sampled from
the next image is the previous patch at every level. The residual is zero, so every increment and
every flow is zero, and the feature comes back at the point at which its patch was centred.
-/

namespace VioFrontend

variable {image : Raster} {x y : ℚ}

lemma Patch.dt_self (p : Patch) : (p.dt p).data = fun _ => 0 := by
  funext k
  exact sub_self _

lemma residual_self (p : Patch) : residual p p = 0 := by
  simp [residual, Patch.at, Patch.row, Patch.dt_self]

lemma timeVector_self (p : Patch) : timeVector p p = 0 := by
  ext k i
  simp [timeVector, Patch.at, Patch.row, Patch.dt_self]

/-- The solve for a patch in its own image finds no displacement. -/
lemma levelDisplacement_self
    (hS : determinant (structureMatrix (Patch.ofImage x y image)) ≠ 0) :
    levelDisplacement (Patch.ofImage x y image) image (some 0) = some 0 := by
  have hnext : nextPatch (Patch.ofImage x y image) image (0 + 0) = Patch.ofImage x y image := by
    simp [nextPatch, Patch.ofImage]
  have hincrement : ∀ Sinv,
      incrementalFlow Sinv (Patch.ofImage x y image) (Patch.ofImage x y image) = 0 := by
    intro Sinv
    ext <;> simp [incrementalFlow, columnVector, timeVector_self]
  have hsum : (0 : Vec2) + 0 = 0 := by ext <;> simp
  have hflow : ∀ Sinv,
      minimise (Patch.ofImage x y image) image 0 (some Sinv) 50 fltMax 0 = some 0 := by
    intro Sinv
    rw [minimise_of_small, hnext, hincrement, hsum]
    · rw [hnext, residual_self]
      norm_num [fltMax]
    · rw [hnext, hincrement]
      simp [exceedsThreshold]
  rw [levelDisplacement, inverse_eq_some hS, Option.bind_eq_bind, Option.bind_some, hflow,
    Option.bind_some, hsum]
  rfl

variable {imagePyramid : ℕ → Raster}

/-- With no displacement at any level the flows stay zero. -/
lemma featureDisplacement_self {patch : ℕ → Patch} {solver : Solver}
    (h : ∀ L < 5, solver.displacement (patch L) (imagePyramid L) (some 0) = some 0) :
    featureDisplacement solver imagePyramid patch = some 0 := by
  have hzero : (2 : ℚ) • (0 : Vec2) = 0 := by ext <;> simp
  have hflow : incomingFlow solver imagePyramid patch 4 = some 0 := by
    refine incomingFlow_induct (P := fun _ flow => flow = some 0) rfl fun d hd incoming hflow => ?_
    rw [hflow, h (4 - d) (by omega), Option.map_some, hzero]
  rw [featureDisplacement, hflow, h 0 (by omega)]

lemma roundToInt_intCast (n : ℤ) : roundToInt (n : ℚ) = n := by
  rw [roundToInt]
  split_ifs
  · rw [Int.floor_eq_iff]
    constructor <;> linarith
  · rw [Int.ceil_eq_iff]
    constructor <;> linarith

/-- A feature centred at a pixel that is not displaced comes back there. -/
lemma trackedKeypoint_zero {px py : ℤ} {image : Raster} (hin : image.Contains px py) :
    trackedKeypoint ⟨((px - 3 : ℤ) : ℚ), ((py - 3 : ℤ) : ℚ)⟩ (some 0) image
      = ⟨⟨px, py⟩, false⟩ := by
  obtain ⟨⟨hx, hxw⟩, hy, hyh⟩ := hin
  have hcentre : ∀ p : ℤ, roundCoordinate ((some (0 : Vec2)).map fun d =>
      ((p - 3 : ℤ) : ℚ) + (patchSize / 2 : ℕ) + d.x) = p ∧
      roundCoordinate ((some (0 : Vec2)).map fun d =>
        ((p - 3 : ℤ) : ℚ) + (patchSize / 2 : ℕ) + d.y) = p := by
    intro p
    have hp : ((p - 3 : ℤ) : ℚ) + (patchSize / 2 : ℕ) + 0 = p := by
      simp [patchSize]
    simp only [roundCoordinate, Option.map_some, Vec2.zero_x, Vec2.zero_y, hp, Option.getD_some,
      roundToInt_intCast, and_self]
  have hbounds :
      ¬ (px < 0 ∨ py < 0 ∨ px > (image.width : ℤ) - 1 ∨ py > (image.height : ℤ) - 1) := by
    omega
  simp only [trackedKeypoint, (hcentre px).1, (hcentre py).2, decide_eq_false hbounds]

/-- Tracking onto the same pyramid gives back every fresh keypoint whose `S` is invertible at all
levels, and leaves stale keypoints stale. -/
theorem trackFeatures_self (patches : PatchPyramid) (imagePyramid : ℕ → Raster)
    (keypoints nextKeypoints : ℕ → KeyPoint) (n : ℕ) (hn : n ≤ 74)
    (hin : ∀ k < n, ∃ px py : ℤ, (keypoints k).point = ⟨px, py⟩ ∧
      (imagePyramid 0).Contains px py) :
    ∃ patches', patches.construct imagePyramid keypoints n = some patches' ∧
      ∀ k < n,
        ((keypoints k).stale = false →
          (∀ L < 5, determinant (structureMatrix (patches' k L)) ≠ 0) →
          trackFeatures lucasKanade patches' imagePyramid keypoints nextKeypoints n k
            = keypoints k) ∧
        ((keypoints k).stale = true →
          (trackFeatures lucasKanade patches' imagePyramid keypoints nextKeypoints n k).stale
            = true) := by
  have hsize : ¬ maxNumberOfPatchesInPyramidLevel < n := by
    simp only [maxNumberOfPatchesInPyramidLevel]
    omega
  obtain ⟨patches', hconstruct⟩ := Option.ne_none_iff_exists'.mp
    (mt PatchPyramid.construct_eq_none.mp hsize)
  refine ⟨patches', hconstruct, fun k hk => ⟨fun hfresh hS => ?_, fun hstale => ?_⟩⟩
  · obtain ⟨px, py, hpoint, hcontains⟩ := hin k hk
    have hpatch : ∀ L < 5, patches' k L = Patch.ofImage ((px - 3) >>> L : ℤ) ((py - 3) >>> L : ℤ)
        (imagePyramid L) := fun L hL =>
      PatchPyramid.construct_fresh hconstruct hk hL hfresh hpoint
    have hdisplacement : featureDisplacement lucasKanade imagePyramid (patches' k) = some 0 := by
      apply featureDisplacement_self
      intro L hL
      have hSL := hS L hL
      rw [hpatch L hL] at hSL ⊢
      exact levelDisplacement_self hSL
    have horigin : (patches' k 0).origin = ⟨((px - 3 : ℤ) : ℚ), ((py - 3 : ℤ) : ℚ)⟩ := by
      rw [hpatch 0 (by omega), Int.shiftRight_zero, Int.shiftRight_zero]
      rfl
    calc trackFeatures lucasKanade patches' imagePyramid keypoints nextKeypoints n k
        = trackedKeypoint (patches' k 0).origin
            (featureDisplacement lucasKanade imagePyramid (patches' k)) (imagePyramid 0) :=
          trackFeatures_of_reached hk hfresh fun L _ => reached_of_not_rejects (fun _ => rfl) k L
      _ = ⟨⟨px, py⟩, false⟩ := by
          rw [hdisplacement, horigin, trackedKeypoint_zero hcontains]
      _ = keypoints k := by
          rw [← hpoint, ← hfresh]
  · rw [trackFeatures_of_stale hk hstale (L := 0) (by omega)
      (reached_of_not_rejects (fun _ => rfl) k 0)]

def productRaster : Raster := ⟨40, 40, fun x y => UInt8.ofNat (x * y % 251).toNat⟩

def freshAndStale (k : ℕ) : KeyPoint := ⟨⟨3, 3⟩, decide (k ≠ 0)⟩

lemma determinant_productRaster :
    determinant (structureMatrix (Patch.ofImage (0 : ℤ) (0 : ℤ) productRaster)) ≠ 0 := by
  decide +kernel

theorem trackFeatures_self_productRaster : ∃ patches' : PatchPyramid,
    (trackFeatures lucasKanade patches' (fun _ => productRaster) freshAndStale freshAndStale 2 0
        = ⟨⟨3, 3⟩, false⟩) ∧
      (trackFeatures lucasKanade patches' (fun _ => productRaster) freshAndStale freshAndStale 2
        1).stale = true := by
  obtain ⟨patches', hconstruct, h⟩ := trackFeatures_self (fun _ _ => ⟨0, fun _ => 0⟩)
    (fun _ => productRaster) freshAndStale freshAndStale 2 (by omega) fun k _ =>
      ⟨3, 3, rfl, by decide⟩
  refine ⟨patches', (h 0 (by omega)).1 rfl fun L hL => ?_, (h 1 (by omega)).2 rfl⟩
  rw [PatchPyramid.construct_fresh hconstruct (by omega) hL rfl rfl]
  simpa using determinant_productRaster

end VioFrontend
