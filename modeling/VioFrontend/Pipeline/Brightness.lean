import VioFrontend.FeatureExtraction.Brightness
import VioFrontend.FeatureTracking.Brightness
import VioFrontend.Pipeline.Invariant

/-!
# Two videos of different brightness

The frames of the second video are those of the first with the same offset on all pixels. The
levels of the pyramids differ by the offset, so the reported keypoints are the same, and the
patches differ by it too, so that all gradients and time gradients agree and every solve takes the
same steps. After every frame the two loops have the same keypoints.
-/

namespace VioFrontend

/-! ### Tracking -/

section

variable {o : ℚ} {image image' : Raster} {p next : Patch} {incoming : Vec2}

lemma gradientMatrix_offset (p : Patch) :
    gradientMatrix (p.brighten 1 o) = gradientMatrix p := by
  rw [← Matrix.transpose_inj, gradientMatrix_brighten, one_smul]

lemma structureMatrix_offset (p : Patch) :
    structureMatrix (p.brighten 1 o) = structureMatrix p := by
  rw [structureMatrix_brighten, one_mul, one_smul]

lemma residual_offset (p next : Patch) :
    residual (p.brighten 1 o) (next.brighten 1 o) = residual p next := by
  rw [residual_brighten one_pos, one_mul]

lemma incrementalFlow_offset (Sinv : Mat 2 2) (p next : Patch) :
    incrementalFlow Sinv (p.brighten 1 o) (next.brighten 1 o) = incrementalFlow Sinv p next := by
  have htime : timeVector (p.brighten 1 o) (next.brighten 1 o) = timeVector p next := by
    ext k i
    simp only [timeVector, Matrix.of_apply, Patch.dt_brighten, one_mul]
  simp only [incrementalFlow, gradientMatrix_offset, htime]

/-- The loop takes the same steps, also where `S` is singular. -/
lemma minimise_offset (himage : image.Brightened 1 o image') (Sinv : Option (Mat 2 2))
    (iterations : ℕ) (norm : ℚ) (flow : Vec2) :
    minimise (p.brighten 1 o) image' incoming Sinv iterations norm flow
      = minimise p image incoming Sinv iterations norm flow := by
  induction iterations generalizing norm flow with
  | zero =>
    rw [minimise.eq_def, minimise.eq_def]
    simp only [nextPatch_brightened himage, residual_offset, incrementalFlow_offset]
  | succ iterations ih =>
    rw [minimise.eq_def, minimise.eq_def]
    simp only [nextPatch_brightened himage, residual_offset, incrementalFlow_offset]
    cases Sinv with
    | none => rfl
    | some Sinv => simp only [ih]

lemma levelDisplacement_offset (himage : image.Brightened 1 o image') (p : Patch)
    (incoming : Option Vec2) :
    levelDisplacement (p.brighten 1 o) image' incoming = levelDisplacement p image incoming := by
  simp only [levelDisplacement, structureMatrix_offset, minimise_offset himage]

end

/-! ### The body of the loop -/

/-- The two states have the same keypoints. The other entries of the keypoint buffers are not read
before they are written. -/
structure SameKeypoints (keypointsBufferSize : ℕ) (s s' : Pipeline) : Prop where
  size_le : s.keypointsSize ≤ keypointsBufferSize
  size : s'.keypointsSize = s.keypointsSize
  staleFeatures : s'.staleFeatures = s.staleFeatures
  keypoints : ∀ i < s.keypointsSize, s'.keypoints i = s.keypoints i
  endKeypoints : ∀ i < s.keypointsSize, (s.keypoints i).stale = true →
    s'.endKeypoints i = s.endKeypoints i

/-- And the patches of the keypoints that are not stale differ by an offset. -/
structure Alike (keypointsBufferSize : ℕ) (o : ℚ) (s s' : Pipeline) : Prop
    extends SameKeypoints keypointsBufferSize s s' where
  patches : ∀ i < s.keypointsSize, (s.keypoints i).stale = false → ∀ L < 5,
    s'.patches i L = (s.patches i L).brighten 1 o

section

variable {o : ℚ} {keypointsBufferSize : ℕ} {imagePyramid imagePyramid' : ℕ → Raster}
  {s s' : Pipeline} (himages : ∀ L < 5, (imagePyramid L).Brightened 1 o (imagePyramid' L))

include himages

lemma featureDisplacement_offset {patch patch' : ℕ → Patch}
    (hpatch : ∀ L < 5, patch' L = (patch L).brighten 1 o) :
    featureDisplacement lucasKanade imagePyramid' patch'
      = featureDisplacement lucasKanade imagePyramid patch := by
  refine featureDisplacement_congr fun L hL incoming => ?_
  rw [hpatch L hL]
  exact levelDisplacement_offset (himages L hL) (patch L) incoming

/-- Every feature is tracked to the same keypoint. -/
lemma Alike.trackFeatures (h : Alike keypointsBufferSize o s s') {k : ℕ}
    (hk : k < s.keypointsSize) :
    trackFeatures lucasKanade s'.patches imagePyramid' s'.keypoints s'.endKeypoints
        s'.keypointsSize k
      = trackFeatures lucasKanade s.patches imagePyramid s.keypoints s.endKeypoints
          s.keypointsSize k := by
  have hk' : k < s'.keypointsSize := h.size ▸ hk
  have hreached : ∀ (patches : PatchPyramid) (keypoints : ℕ → KeyPoint) (L : ℕ),
      Reached lucasKanade patches keypoints k L :=
    fun _ _ L => reached_of_not_rejects (fun _ => rfl) k L
  cases hstale : (s.keypoints k).stale with
  | true =>
    have hstale' : (s'.keypoints k).stale = true := by rw [h.keypoints k hk, hstale]
    rw [trackFeatures_of_stale hk hstale (L := 0) (by omega) (hreached _ _ 0),
      trackFeatures_of_stale hk' hstale' (L := 0) (by omega) (hreached _ _ 0),
      h.endKeypoints k hk hstale]
  | false =>
    have hstale' : (s'.keypoints k).stale = false := by rw [h.keypoints k hk, hstale]
    have hpatch := h.patches k hk hstale
    rw [trackFeatures_of_reached hk hstale fun L _ => hreached _ _ L,
      trackFeatures_of_reached hk' hstale' fun L _ => hreached _ _ L,
      featureDisplacement_offset himages hpatch, hpatch 0 (by omega)]
    simp only [trackedKeypoint, (himages 0 (by omega)).width, (himages 0 (by omega)).height]
    rfl

lemma Alike.trackFrame (h : Alike keypointsBufferSize o s s') :
    SameKeypoints keypointsBufferSize (trackFrame lucasKanade imagePyramid s)
      (trackFrame lucasKanade imagePyramid' s') := by
  by_cases hsize : 0 < s.keypointsSize
  · have hsize' : 0 < s'.keypointsSize := h.size ▸ hsize
    have htracked := fun i hi => h.trackFeatures himages (k := i) hi
    rw [VioFrontend.trackFrame, if_pos hsize, VioFrontend.trackFrame, if_pos hsize']
    refine ⟨h.size_le, h.size, ?_, fun i hi => ?_, fun i hi _ => htracked i hi⟩
    · simp only [countStale_eq_card, h.size]
      congr 1
      refine Finset.filter_congr fun i hi => ?_
      have hkeypoint := htracked i (Finset.mem_range.mp hi)
      rw [h.size] at hkeypoint
      rw [hkeypoint]
    · have hi' : i < s'.keypointsSize := h.size ▸ hi
      simp only [copyKeypoints, if_pos hi, if_pos hi']
      exact htracked i hi
  · have hsize' : ¬ 0 < s'.keypointsSize := h.size ▸ hsize
    rw [VioFrontend.trackFrame, if_neg hsize, VioFrontend.trackFrame, if_neg hsize']
    exact h.toSameKeypoints

/-- The patches are taken from images that differ by the offset. -/
lemma SameKeypoints.constructPatches (h : SameKeypoints keypointsBufferSize s s')
    (hcapacity : keypointsBufferSize ≤ maxNumberOfPatchesInPyramidLevel) :
    ∃ r r', constructPatches imagePyramid s = some r ∧ constructPatches imagePyramid' s' = some r' ∧
      Alike keypointsBufferSize o r r' := by
  have hfits : ¬ s.keypointsSize > maxNumberOfPatchesInPyramidLevel :=
    not_lt.mpr (h.size_le.trans hcapacity)
  have hfits' : ¬ s'.keypointsSize > maxNumberOfPatchesInPyramidLevel := h.size ▸ hfits
  rw [VioFrontend.constructPatches, PatchPyramid.construct, if_neg hfits,
    VioFrontend.constructPatches, PatchPyramid.construct, if_neg hfits']
  refine ⟨_, _, rfl, rfl, ⟨h.size_le, h.size, h.staleFeatures, h.keypoints, h.endKeypoints⟩, ?_⟩
  intro i hi hfresh L hL
  have hi' : i < s'.keypointsSize := h.size ▸ hi
  simp only [h.keypoints i hi]
  rw [if_pos ⟨hi', hL, hfresh⟩, if_pos ⟨hi, hL, hfresh⟩]
  exact Patch.ofImage_brightened (himages L hL) _ _

end

/-- Two images with the same reported keypoints give the same keypoints. -/
lemma resample_same (keypointsBufferSize : ℕ) (s s' : Pipeline) {image image' : Raster}
    (hw : image.width ≤ 32768) (hw' : image'.width ≤ 32768)
    (hreported : image'.reported 70 = image.reported 70) :
    ∃ r r', resample keypointsBufferSize image s = some r ∧
      resample keypointsBufferSize image' s' = some r' ∧
      SameKeypoints keypointsBufferSize r r' := by
  rw [resample, extractFeatures_spec hw, resample, extractFeatures_spec hw', hreported]
  refine ⟨_, _, rfl, rfl, min_le_left _ _, rfl, rfl, fun i hi => ?_, fun i hi hstale => ?_⟩
  · obtain ⟨hcap, hlen⟩ := lt_min_iff.mp hi
    simp only [getD_take hcap hlen]
  · obtain ⟨x, y, hkeypoint, -⟩ := stored_keypoint hi (s.keypoints i)
    simp only [hkeypoint] at hstale
    exact absurd hstale Bool.false_ne_true

/-! ### Runs -/

variable {keypointsBufferSize c hi : ℕ} {s s' : Pipeline}

lemma processPyramid_eq (solver : Solver) (keypointsBufferSize : ℕ) (imagePyramid : ℕ → Raster)
    (s : Pipeline) :
    processPyramid solver keypointsBufferSize imagePyramid s
      = (if needsResample (trackFrame solver imagePyramid s) then
          resample keypointsBufferSize (imagePyramid 0) (trackFrame solver imagePyramid s)
        else some (trackFrame solver imagePyramid s)).bind (constructPatches imagePyramid) := by
  rw [processPyramid]
  split_ifs <;> rfl

/-- The body of the loop on two pyramids whose levels differ by an offset. -/
lemma processPyramid_alike (hcapacity : keypointsBufferSize ≤ maxNumberOfPatchesInPyramidLevel)
    (hhi : hi + c ≤ 254) {imagePyramid imagePyramid' : ℕ → Raster}
    (hlevels : ∀ L < 5, (imagePyramid L).BrighterBy c (imagePyramid' L))
    (hpos : ∀ L < 5, 0 < (imagePyramid L).width ∧ 0 < (imagePyramid L).height)
    (hbetween : (imagePyramid 0).Between 4 hi) (hw : (imagePyramid 0).width ≤ 32768)
    (h : Alike keypointsBufferSize c s s') :
    ∃ r r', processPyramid lucasKanade keypointsBufferSize imagePyramid s = some r ∧
      processPyramid lucasKanade keypointsBufferSize imagePyramid' s' = some r' ∧
      Alike keypointsBufferSize c r r' := by
  have hfinest := hlevels 0 (by omega)
  have himages : ∀ L < 5, (imagePyramid L).Brightened 1 c (imagePyramid' L) := by
    intro L hL
    have hlevel := hlevels L hL
    refine Raster.brightened_of_contains hlevel.width hlevel.height (hpos L hL) fun x y hin => ?_
    rw [hlevel.pixel x y hin]
    push_cast
    ring
  have htracked := h.trackFrame himages
  have hneeds : needsResample (trackFrame lucasKanade imagePyramid' s')
      = needsResample (trackFrame lucasKanade imagePyramid s) := by
    rw [needsResample, htracked.size, htracked.staleFeatures, needsResample]
  have hbody : ∃ r r',
      (if needsResample (trackFrame lucasKanade imagePyramid s) then
        resample keypointsBufferSize (imagePyramid 0) (trackFrame lucasKanade imagePyramid s)
      else some (trackFrame lucasKanade imagePyramid s)) = some r ∧
      (if needsResample (trackFrame lucasKanade imagePyramid s) then
        resample keypointsBufferSize (imagePyramid' 0) (trackFrame lucasKanade imagePyramid' s')
      else some (trackFrame lucasKanade imagePyramid' s')) = some r' ∧
      SameKeypoints keypointsBufferSize r r' := by
    split_ifs
    · refine resample_same keypointsBufferSize _ _ hw (hfinest.width ▸ hw) ?_
      exact hfinest.reported (hbetween.mono (by decide) (by omega))
        ((hfinest.between hbetween).mono (by omega) hhi)
    · exact ⟨_, _, rfl, rfl, htracked⟩
  obtain ⟨r, r', hr, hr', hsame⟩ := hbody
  obtain ⟨t, t', ht, ht', halike⟩ := hsame.constructPatches himages hcapacity
  refine ⟨t, t', ?_, ?_, halike⟩
  · rw [processPyramid_eq, hr, Option.bind_some, ht]
  · rw [processPyramid_eq, hneeds, hr', Option.bind_some, ht']

/-- The body of the loop on a frame and on the frame with the offset. -/
lemma processFrame_alike {buffers : FrameBuffers}
    (hcapacity : keypointsBufferSize ≤ maxNumberOfPatchesInPyramidLevel) (hc : 4 ∣ c)
    (hhi : hi + c ≤ 254) {image : Raster} (hfit : buffers.Fit image)
    (hsize : (16 ≤ image.width ∧ image.width ≤ 32768) ∧ 32 ≤ image.height)
    (hbetween : image.Between 4 hi) (h : Alike keypointsBufferSize c s s') :
    ∃ r r', processFrame lucasKanade buffers keypointsBufferSize (some image) s = some r ∧
      processFrame lucasKanade buffers keypointsBufferSize (some (image.brighter c)) s'
        = some r' ∧
      Alike keypointsBufferSize c r r' := by
  have hbrighter := Raster.brighterBy_brighter hbetween (c := c) (by omega)
  have hfit' : buffers.Fit (image.brighter c) := by
    rw [FrameBuffers.Fit, hbrighter.levelsEnd]
    exact hfit
  obtain ⟨levels, hrun, hsame⟩ := framePyramid_spec hfit hsize.2
  obtain ⟨levels', hrun', hsame'⟩ := framePyramid_spec hfit' hsize.2
  have hlevels : ∀ L < 5, (levels L).BrighterBy c (levels' L) := fun L hL =>
    (hsame L hL).brighterBy (hsame' L hL) (hbrighter.level hc L)
  have hpos : ∀ L < 5, 0 < (levels L).width ∧ 0 < (levels L).height := by
    intro L hL
    rw [(hsame L hL).width, (hsame L hL).height]
    exact Raster.level_pos ⟨hsize.1.1, by omega⟩ hL
  have hfinest := hsame 0 (by omega)
  obtain ⟨r, r', hr, hr', halike⟩ := processPyramid_alike hcapacity hhi hlevels hpos
    (hfinest.between (hbetween.level (by decide) 0)) (hfinest.width ▸ hsize.1.2) h
  refine ⟨r, r', ?_, ?_, halike⟩
  · rw [processFrame, hrun, Option.bind_eq_bind, Option.bind_some, hr]
  · rw [processFrame, hrun', Option.bind_eq_bind, Option.bind_some, hr']

/-- The loops over a video and over the video with the same offset on all pixels of all frames
have the same keypoints after every frame: the same number, at the same points, with the same ones
stale. The offset is a multiple of four, no pixel is darker than 4, and none gets brighter than
254. -/
theorem processFrame_brighter (buffers : FrameBuffers) (keypointsBufferSize c hi : ℕ)
    (hcapacity : keypointsBufferSize ≤ maxNumberOfPatchesInPyramidLevel) (hc : 4 ∣ c)
    (hhi : hi + c ≤ 254) (frames : ℕ → Option Raster)
    (hframes : ∀ n image, frames n = some image → buffers.Fit image ∧
      ((16 ≤ image.width ∧ image.width ≤ 32768) ∧ 32 ≤ image.height) ∧ image.Between 4 hi)
    (s₀ s₀' : Pipeline) (hsize : s₀.keypointsSize = 0 ∧ s₀'.keypointsSize = 0)
    (hstale : s₀.staleFeatures = 0 ∧ s₀'.staleFeatures = 0) (n : ℕ) :
    ∃ s s',
      Runs.after (processFrame lucasKanade buffers keypointsBufferSize) frames s₀ n = some s ∧
      Runs.after (processFrame lucasKanade buffers keypointsBufferSize)
        (fun n => (frames n).map (Raster.brighter c)) s₀' n = some s' ∧
      s'.keypointsSize = s.keypointsSize ∧ s'.staleFeatures = s.staleFeatures ∧
      ∀ i < s.keypointsSize, s'.keypoints i = s.keypoints i := by
  have hstart : Alike keypointsBufferSize c s₀ s₀' := by
    refine ⟨⟨by omega, by omega, by omega, fun i hi => ?_, fun i hi => ?_⟩, fun i hi => ?_⟩ <;>
      omega
  have hstep : ∀ n s s', Alike keypointsBufferSize c s s' →
      ∃ r r', processFrame lucasKanade buffers keypointsBufferSize (frames n) s = some r ∧
        processFrame lucasKanade buffers keypointsBufferSize
          ((frames n).map (Raster.brighter c)) s' = some r' ∧
        Alike keypointsBufferSize c r r' := by
    intro n s s' h
    cases hframe : frames n with
    | none => exact ⟨s, s', rfl, rfl, h⟩
    | some image =>
      obtain ⟨hfit, hsize, hbetween⟩ := hframes n image hframe
      exact processFrame_alike hcapacity hc hhi hfit hsize hbetween h
  obtain ⟨s, s', hs, hs', halike⟩ := Runs.exists_after_pair hstart hstep n
  exact ⟨s, s', hs, hs', halike.size, halike.staleFeatures, halike.keypoints⟩

lemma dots_between : (dots 24).Between 4 84 := by
  intro x y _
  simp only [dots]
  split_ifs <;> decide

/-- The video and the same one brighter by 100. A keypoint that is not stale has the same place in
both. -/
theorem processFrame_brighter_dotVideo :
    ∃ s s',
      Runs.after (processFrame lucasKanade ⟨768, 254⟩ 74) dotVideo emptyPipeline 3 = some s ∧
      Runs.after (processFrame lucasKanade ⟨768, 254⟩ 74)
        (fun n => (dotVideo n).map (Raster.brighter 100)) emptyPipeline 3 = some s' ∧
      ∃ i < s.keypointsSize, (s.keypoints i).stale = false ∧ s'.keypoints i = s.keypoints i := by
  obtain ⟨s, s', hs, hs', -, -, hkeypoints⟩ := processFrame_brighter ⟨768, 254⟩ 74 100 84 le_rfl
    (by decide) (by decide) dotVideo (fun n image himage => by
      obtain rfl := dotVideo_eq himage
      exact ⟨by decide, by decide, dots_between⟩)
    emptyPipeline emptyPipeline ⟨rfl, rfl⟩ ⟨rfl, rfl⟩ 3
  obtain ⟨i, hi, hfresh⟩ := dotVideo_fresh (fun _ => rfl) hs
  exact ⟨s, s', hs, hs', i, hi, hfresh, hkeypoints i hi⟩

end VioFrontend
