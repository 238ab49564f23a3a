import VioFrontend.FeatureExtraction.Symmetry
import VioFrontend.Pipeline.Basic

/-!
# The invariant of the frame loop

`Sound` holds after every frame of every run, whatever the frames show, whichever of them fail to
load, and wherever the solver moves the features. The frames have at least 16 columns and 32 rows:
the constructor of the pyramid fails on fewer rows, and with fewer columns the coarsest level has no
pixel to build a patch from.
-/

namespace VioFrontend

/-- A point with integer coordinates inside an image of the given size. -/
def Vec2.IsPixel (width height : ℕ) (v : Vec2) : Prop :=
  ∃ px py : ℤ, v = ⟨px, py⟩ ∧ (0 ≤ px ∧ px < width) ∧ (0 ≤ py ∧ py < height)

structure Sound (width height keypointsBufferSize : ℕ) (s : Pipeline) : Prop where
  size_le : s.keypointsSize ≤ keypointsBufferSize
  inside : ∀ i < s.keypointsSize, (s.keypoints i).stale = false →
    (s.keypoints i).point.IsPixel width height
  count : s.staleFeatures
    = ((Finset.range s.keypointsSize).filter fun i => (s.keypoints i).stale = true).card

/-- The keypoints are those of before, and the stale ones are still stale. -/
def KeepsStale (s s' : Pipeline) : Prop :=
  s'.keypointsSize = s.keypointsSize ∧
    ∀ i < s.keypointsSize, (s.keypoints i).stale = true → (s'.keypoints i).stale = true

/-- The patches of a keypoint that is not stale start three pixels before it, and show the
levels of the pyramid. -/
def PatchesFrom (imagePyramid : ℕ → Raster) (s : Pipeline) : Prop :=
  ∀ i < s.keypointsSize, (s.keypoints i).stale = false →
    ∃ px py : ℤ, (s.keypoints i).point = ⟨px, py⟩ ∧
      ∀ L < 5, s.patches i L
        = Patch.ofImage ((px - 3) >>> L : ℤ) ((py - 3) >>> L : ℤ) (imagePyramid L)

/-- Patches that show a pyramid show every pyramid with the same pixels. -/
lemma PatchesFrom.of_samePixels {imagePyramid imagePyramid' : ℕ → Raster} {s : Pipeline}
    (hsame : ∀ L < 5, (imagePyramid L).SamePixels (imagePyramid' L))
    (hpos : ∀ L < 5, 0 < (imagePyramid L).width ∧ 0 < (imagePyramid L).height)
    (h : PatchesFrom imagePyramid' s) : PatchesFrom imagePyramid s := by
  intro i hi hfresh
  obtain ⟨px, py, hpoint, hpatch⟩ := h i hi hfresh
  refine ⟨px, py, hpoint, fun L hL => ?_⟩
  rw [hpatch L hL, (hsame L hL).patch (hpos L hL)]

lemma KeepsStale.refl (s : Pipeline) : KeepsStale s s := ⟨rfl, fun _ _ h => h⟩

lemma KeepsStale.trans (a b c : Pipeline) (h : KeepsStale a b) (h' : KeepsStale b c) :
    KeepsStale a c := by
  obtain ⟨hsize, hstale⟩ := h
  obtain ⟨hsize', hstale'⟩ := h'
  refine ⟨hsize'.trans hsize, fun i hi ha => ?_⟩
  exact hstale' i (hsize ▸ hi) (hstale i hi ha)

lemma countStale_eq_card (keypoints : ℕ → KeyPoint) (size : ℕ) :
    countStale keypoints size
      = ((Finset.range size).filter fun i => (keypoints i).stale = true).card := by
  induction size with
  | zero => rfl
  | succ n ih =>
    rw [countStale] at ih ⊢
    rw [List.range_succ, List.foldl_append, ih, List.foldl_cons, List.foldl_nil,
      Finset.range_add_one, Finset.filter_insert]
    split_ifs with hstale
    · rw [Finset.card_insert_of_notMem (by simp)]
    · rfl

/-- A tracked keypoint that is not stale is a pixel of the image. -/
lemma trackedKeypoint_isPixel {origin : Vec2} {displacement : Option Vec2} {image : Raster}
    (h : (trackedKeypoint origin displacement image).stale = false) :
    (trackedKeypoint origin displacement image).point.IsPixel image.width image.height := by
  simp only [trackedKeypoint, decide_eq_false_iff_not, not_or, not_lt] at h
  obtain ⟨hx, hy, hxw, hyh⟩ := h
  exact ⟨_, _, rfl, ⟨hx, by linarith⟩, hy, by linarith⟩

variable {solver : Solver} {imagePyramid : ℕ → Raster} {width height keypointsBufferSize : ℕ}
  {s s' : Pipeline}

/-! ### What each part of the body does -/

lemma trackFrame_keypointsSize :
    (trackFrame solver imagePyramid s).keypointsSize = s.keypointsSize := by
  rw [trackFrame]
  split_ifs <;> rfl

lemma trackFrame_count
    (hcount : s.staleFeatures
      = ((Finset.range s.keypointsSize).filter fun i => (s.keypoints i).stale = true).card) :
    (trackFrame solver imagePyramid s).staleFeatures
      = ((Finset.range s.keypointsSize).filter fun i =>
          ((trackFrame solver imagePyramid s).keypoints i).stale = true).card := by
  by_cases hsize : 0 < s.keypointsSize
  · simp only [trackFrame, if_pos hsize, countStale_eq_card]
    congr 1
    apply Finset.filter_congr
    intro i hi
    rw [copyKeypoints, if_pos (Finset.mem_range.mp hi)]
  · simp only [trackFrame, if_neg hsize]
    exact hcount

section

variable (hsolver : ∀ p, solver.rejects p = false)

include hsolver

/-- Every entry is written by the tracking. -/
lemma trackFrame_keypoints {i : ℕ} (hi : i < s.keypointsSize) :
    ((trackFrame solver imagePyramid s).keypoints i).stale = true ∨
      (s.keypoints i).stale = false ∧
        ((trackFrame solver imagePyramid s).keypoints i).point.IsPixel (imagePyramid 0).width
          (imagePyramid 0).height := by
  rw [trackFrame, if_pos (Nat.zero_lt_of_lt hi)]
  simp only [copyKeypoints, if_pos hi]
  have hreached : ∀ L, Reached solver s.patches s.keypoints i L :=
    fun L => reached_of_not_rejects hsolver i L
  cases hstale : (s.keypoints i).stale with
  | true =>
    left
    rw [trackFeatures_of_stale hi hstale (by decide) (hreached 0)]
  | false =>
    rw [trackFeatures_of_reached hi hstale fun L _ => hreached L]
    cases htracked : (trackedKeypoint (s.patches i 0).origin
        (featureDisplacement solver imagePyramid (s.patches i)) (imagePyramid 0)).stale with
    | true => exact Or.inl rfl
    | false => exact Or.inr ⟨rfl, trackedKeypoint_isPixel htracked⟩

lemma trackFrame_keepsStale : KeepsStale s (trackFrame solver imagePyramid s) := by
  refine ⟨trackFrame_keypointsSize, fun i hi hstale => ?_⟩
  rcases trackFrame_keypoints hsolver hi with h | ⟨hfresh, -⟩
  · exact h
  · exact absurd (hfresh.symm.trans hstale) Bool.false_ne_true

lemma trackFrame_sound (hwidth : (imagePyramid 0).width = width)
    (hheight : (imagePyramid 0).height = height) (h : Sound width height keypointsBufferSize s) :
    Sound width height keypointsBufferSize (trackFrame solver imagePyramid s) := by
  obtain ⟨hsize, -, hcount⟩ := h
  constructor
  · rw [trackFrame_keypointsSize]
    exact hsize
  · intro i hi hfresh
    rw [trackFrame_keypointsSize] at hi
    rcases trackFrame_keypoints hsolver hi with hstale | ⟨-, hpixel⟩
    · exact absurd (hfresh.symm.trans hstale) Bool.false_ne_true
    · rw [hwidth, hheight] at hpixel
      exact hpixel
  · rw [trackFrame_keypointsSize]
    exact trackFrame_count hcount

end

/-- The extracted keypoints are fresh pixels that fit the buffer. -/
lemma resample_sound (keypointsBufferSize : ℕ) (s : Pipeline) {image : Raster}
    (hwidth : image.width = width)
    (hheight : image.height = height) (hw : width ≤ 32768) :
    ∃ s', resample keypointsBufferSize image s = some s' ∧
      Sound width height keypointsBufferSize s' := by
  subst hwidth hheight
  refine ⟨_, by rw [resample, extractFeatures_spec hw]; rfl, min_le_left _ _, ?_, ?_⟩
  · intro i hi _
    obtain ⟨x, y, heq, hx, hy⟩ := stored_keypoint hi (s.keypoints i)
    exact ⟨x, y, by simp only [heq, Int.cast_natCast], by omega, by omega⟩
  · refine (Finset.card_eq_zero.mpr (Finset.filter_eq_empty_iff.mpr ?_)).symm
    intro i hi hstale
    obtain ⟨x, y, heq, -⟩ := stored_keypoint (Finset.mem_range.mp hi) (s.keypoints i)
    simp only [heq] at hstale
    exact Bool.false_ne_true hstale

lemma constructPatches_spec (imagePyramid : ℕ → Raster)
    (hcapacity : keypointsBufferSize ≤ maxNumberOfPatchesInPyramidLevel)
    (h : Sound width height keypointsBufferSize s) :
    ∃ patches, constructPatches imagePyramid s = some { s with patches } ∧
      PatchesFrom imagePyramid { s with patches } := by
  have hfits : ¬ maxNumberOfPatchesInPyramidLevel < s.keypointsSize :=
    not_lt.mpr (h.size_le.trans hcapacity)
  obtain ⟨patches, hconstruct⟩ := Option.ne_none_iff_exists'.mp
    (mt PatchPyramid.construct_eq_none.mp hfits)
  refine ⟨patches, by rw [constructPatches, hconstruct]; rfl, fun i hi hfresh => ?_⟩
  obtain ⟨px, py, hpoint, -⟩ := h.inside i hi hfresh
  exact ⟨px, py, hpoint, fun L hL =>
    PatchPyramid.construct_fresh hconstruct hi hL hfresh hpoint⟩

/-! ### Runs -/

/-- The body of the loop does not fail, whatever the levels above the first one hold. -/
lemma processPyramid_sound (imagePyramid : ℕ → Raster)
    (hsolver : ∀ p, solver.rejects p = false)
    (hwidth : (imagePyramid 0).width = width) (hheight : (imagePyramid 0).height = height)
    (hw : width ≤ 32768) (hcapacity : keypointsBufferSize ≤ maxNumberOfPatchesInPyramidLevel)
    (h : Sound width height keypointsBufferSize s) :
    ∃ s', processPyramid solver keypointsBufferSize imagePyramid s = some s' ∧
      Sound width height keypointsBufferSize s' ∧ PatchesFrom imagePyramid s' ∧
      (needsResample (trackFrame solver imagePyramid s) = false → KeepsStale s s') := by
  have htracked := trackFrame_sound hsolver hwidth hheight h
  cases hresample : needsResample (trackFrame solver imagePyramid s) with
  | true =>
    obtain ⟨s₁, hs₁, hsound⟩ := resample_sound keypointsBufferSize
      (trackFrame solver imagePyramid s) hwidth hheight hw
    obtain ⟨patches, hconstruct, hpatches⟩ :=
      constructPatches_spec imagePyramid hcapacity hsound
    refine ⟨{ s₁ with patches }, ?_, ⟨hsound.size_le, hsound.inside, hsound.count⟩, hpatches,
      fun hnot => absurd hnot.symm Bool.false_ne_true⟩
    simp only [processPyramid, hresample, if_true, hs₁, Option.bind_eq_bind, Option.bind_some,
      hconstruct]
  | false =>
    obtain ⟨patches, hconstruct, hpatches⟩ :=
      constructPatches_spec imagePyramid hcapacity htracked
    refine ⟨{ trackFrame solver imagePyramid s with patches }, ?_,
      ⟨htracked.size_le, htracked.inside, htracked.count⟩, hpatches,
      fun _ => trackFrame_keepsStale hsolver⟩
    simp only [processPyramid, hresample, Bool.false_eq_true, if_false, Option.bind_eq_bind,
      Option.bind_some, hconstruct]

lemma processFrame_sound (hsolver : ∀ p, solver.rejects p = false) {buffers : FrameBuffers}
    {frame : Option Raster}
    (hframe : ∀ image, frame = some image →
      (image.width = width ∧ image.height = height) ∧ buffers.Fit image)
    (hw : 16 ≤ width ∧ width ≤ 32768) (hh : 32 ≤ height)
    (hcapacity : keypointsBufferSize ≤ maxNumberOfPatchesInPyramidLevel)
    (h : Sound width height keypointsBufferSize s) :
    ∃ s', processFrame solver buffers keypointsBufferSize frame s = some s' ∧
      Sound width height keypointsBufferSize s' ∧
      (∀ image, frame = some image → PatchesFrom image.level s') ∧
      (¬ Resamples solver buffers frame s → KeepsStale s s') := by
  cases frame with
  | none =>
    refine ⟨s, rfl, h, fun image himage => ?_, fun _ => KeepsStale.refl s⟩
    cases himage
  | some image =>
    obtain ⟨⟨hwidth, hheight⟩, hfit⟩ := hframe image rfl
    obtain ⟨levels, hlevels, hsame⟩ := framePyramid_spec hfit (hheight ▸ hh)
    have hfinest := hsame 0 (by omega)
    obtain ⟨s', hs', hsound, hpatches, hkeeps⟩ :=
      processPyramid_sound levels hsolver (hfinest.width.trans hwidth)
        (hfinest.height.trans hheight) hw.2 hcapacity h
    refine ⟨s', ?_, hsound, ?_, fun hnot => hkeeps ?_⟩
    · rw [processFrame, hlevels, Option.bind_eq_bind, Option.bind_some, hs']
    · rintro _ ⟨⟩
      exact hpatches.of_samePixels hsame fun L hL => Raster.level_pos (by omega) hL
    · rw [Bool.eq_false_iff]
      exact fun hresample => hnot ⟨image, levels, rfl, hlevels, hresample⟩

/-- The state is sound after every frame. -/
lemma exists_after_sound (hsolver : ∀ p, solver.rejects p = false) {buffers : FrameBuffers}
    {frames : ℕ → Option Raster}
    (hframes : ∀ n image, frames n = some image →
      (image.width = width ∧ image.height = height) ∧ buffers.Fit image)
    (hw : 16 ≤ width ∧ width ≤ 32768) (hh : 32 ≤ height)
    (hcapacity : keypointsBufferSize ≤ maxNumberOfPatchesInPyramidLevel)
    (hsize : s.keypointsSize = 0) (hstale : s.staleFeatures = 0) (n : ℕ) :
    ∃ r, Runs.after (processFrame solver buffers keypointsBufferSize) frames s n = some r ∧
      Sound width height keypointsBufferSize r := by
  have hstart : Sound width height keypointsBufferSize s := by
    refine ⟨by omega, fun i hi => by omega, ?_⟩
    rw [hsize, hstale]
    rfl
  refine Runs.exists_after hstart (fun j r hr => ?_) n
  obtain ⟨r', hr', hsound, -⟩ := processFrame_sound hsolver (hframes j) hw hh hcapacity hr
  exact ⟨r', hr', hsound⟩

/-- After every frame of every run the state is sound, stale keypoints have stayed stale since
the last time all keypoints were replaced, and the patches are those of the frame. -/
theorem processFrame_run (width height keypointsBufferSize : ℕ)
    (hw : 16 ≤ width ∧ width ≤ 32768) (hh : 32 ≤ height)
    (hcapacity : keypointsBufferSize ≤ maxNumberOfPatchesInPyramidLevel) (buffers : FrameBuffers)
    (solver : Solver) (hsolver : ∀ p, solver.rejects p = false) (frames : ℕ → Option Raster)
    (hframes : ∀ n image, frames n = some image →
      (image.width = width ∧ image.height = height) ∧ buffers.Fit image)
    (s₀ : Pipeline) (hsize : s₀.keypointsSize = 0) (hstale : s₀.staleFeatures = 0) (n : ℕ) :
    ∃ s, Runs.after (processFrame solver buffers keypointsBufferSize) frames s₀ n = some s ∧
      Sound width height keypointsBufferSize s ∧
      (∀ m ≤ n, ∀ r,
        Runs.after (processFrame solver buffers keypointsBufferSize) frames s₀ m = some r →
        (∀ j, m ≤ j → j < n → ∀ t,
          Runs.after (processFrame solver buffers keypointsBufferSize) frames s₀ j = some t →
          ¬ Resamples solver buffers (frames j) t) → KeepsStale r s) ∧
      ∀ m image, n = m + 1 → frames m = some image → PatchesFrom image.level s := by
  have hrun := exists_after_sound hsolver hframes hw hh hcapacity hsize hstale
  have hstep := fun j r (hr : Sound width height keypointsBufferSize r) =>
    processFrame_sound hsolver (hframes j) hw hh hcapacity hr
  obtain ⟨s, hs, hsound⟩ := hrun n
  refine ⟨s, hs, hsound, ?_, ?_⟩
  · intro m hmn r hr hquiet
    refine Runs.rel_of_steps KeepsStale.refl KeepsStale.trans hmn ?_ hr hs
    intro j hmj hjn a b ha hab
    obtain ⟨a', ha', hsounda⟩ := hrun j
    obtain rfl := Option.some.inj (ha'.symm.trans ha)
    obtain ⟨b', hb', -, -, hkeeps⟩ := hstep j a' hsounda
    obtain rfl := Option.some.inj (hb'.symm.trans hab)
    exact hkeeps (hquiet j hmj hjn a' ha)
  · rintro m image rfl himage
    obtain ⟨r, hr, hsoundr⟩ := hrun m
    obtain ⟨s', hs', -, hpatches, -⟩ := hstep m r hsoundr
    rw [Runs.after, hr, Option.bind_some, hs'] at hs
    obtain rfl := Option.some.inj hs
    exact hpatches image himage

/-! ### Keypoints in a run -/

/-- A frame on which the extraction finds something leaves keypoints that are not stale. -/
lemma processPyramid_fresh (hw : (imagePyramid 0).width ≤ 32768) (hpos : 0 < keypointsBufferSize)
    (hreported : (imagePyramid 0).reported 70 ≠ [])
    (h : processPyramid solver keypointsBufferSize imagePyramid s = some s')
    (hsound : Sound width height keypointsBufferSize s') :
    ∃ i < s'.keypointsSize, (s'.keypoints i).stale = false := by
  cases hresample : needsResample (trackFrame solver imagePyramid s) with
  | true =>
    simp only [processPyramid, hresample, if_true, resample, extractFeatures_spec hw,
      constructPatches, Option.bind_eq_bind, Option.bind_some, Option.pure_def,
      Option.bind_eq_some_iff] at h
    obtain ⟨patches, -, hs'⟩ := h
    obtain rfl := Option.some.inj hs'
    have hfirst := lt_min hpos (List.length_pos_of_ne_nil hreported)
    obtain ⟨x, y, hkeypoint, -⟩ := stored_keypoint hfirst
      ((trackFrame solver imagePyramid s).keypoints 0)
    exact ⟨0, hfirst, by simp only [hkeypoint]⟩
  | false =>
    simp only [processPyramid, hresample, Bool.false_eq_true, if_false, constructPatches,
      Option.bind_eq_bind, Option.bind_some, Option.pure_def, Option.bind_eq_some_iff] at h
    obtain ⟨patches, -, hs'⟩ := h
    obtain rfl := Option.some.inj hs'
    -- at least 5 of the tracked ones are left
    by_contra hnone
    have hall : ∀ i ∈ Finset.range (trackFrame solver imagePyramid s).keypointsSize,
        ((trackFrame solver imagePyramid s).keypoints i).stale = true := by
      intro i hi
      by_contra hfresh
      exact hnone ⟨i, Finset.mem_range.mp hi, by simpa using hfresh⟩
    have hcount := hsound.count
    simp only [Finset.filter_true_of_mem hall, Finset.card_range] at hcount
    simp only [needsResample, hcount, sub_self, decide_eq_false_iff_not] at hresample
    exact hresample (by decide)

/-- Nothing in the buffers, and no keypoints. -/
def emptyPipeline : Pipeline where
  keypoints := noKeypoints
  endKeypoints := noKeypoints
  keypointsSize := 0
  staleFeatures := 0
  patches _ _ := ⟨0, fun _ => 0⟩

/-- Grey squares of 3x3 pixels on a darker ground. -/
def dots (width : ℕ) : Raster where
  width := width
  height := 32
  pixel x y := if (x.toNat + 4) % 8 < 3 ∧ (y.toNat + 4) % 8 < 3 then 84 else 10

/-- The middle of the first square is a corner of the blurred image. -/
lemma dots_isLocalMaximum :
    ∀ n ∈ [15, 24], ((dots n).level 0).IsLocalMaximum 70 (5 : ℕ) (5 : ℕ) := by
  have hscores : ∀ n ∈ [15, 24], ((dots n).level 0).score 70 (5 : ℕ) (5 : ℕ) = 70 ∧
      ∀ p ∈ neighbours 5 5, ((dots n).level 0).score 70 p.2 p.1 < 70 := by
    decide +kernel
  intro n hn
  obtain ⟨hcentre, hneighbours⟩ := hscores n hn
  rw [isLocalMaximum_iff_neighbours (by decide) (by decide), hcentre]
  exact ⟨by decide, hneighbours⟩

lemma dots_reported {n : ℕ} (hn : n ∈ [15, 24]) {image : Raster}
    (h : ((dots n).level 0).SamePixels image) : image.reported 70 ≠ [] := by
  have hwidth : image.width = n := h.width
  have hheight : image.height = 32 := h.height
  have hcolumns : 15 ≤ n := (by decide : ∀ m ∈ [15, 24], 15 ≤ m) n hn
  have hin : ∀ img : Raster, img.width = n → img.height = 32 →
      img.WindowInside (5 : ℕ) (5 : ℕ) := by
    intro img hwidth hheight
    rw [Raster.WindowInside, hwidth, hheight]
    omega
  have hpixel : ∀ dx dy : ℤ, (-4 ≤ dx ∧ dx ≤ 4) → (-4 ≤ dy ∧ dy ≤ 4) →
      image.pixel ((5 : ℕ) + dx) ((5 : ℕ) + dy)
        = ((dots n).level 0).pixel ((5 : ℕ) + dx) ((5 : ℕ) + dy) := by
    intro dx dy hdx hdy
    refine h.pixel _ _ ?_
    rw [← h.contains, Raster.Contains, hwidth, hheight]
    omega
  have hwindow : Raster.SameWindow ⟨false, false, false⟩ 1 ((dots n).level 0) (5 : ℕ) (5 : ℕ)
      image (5 : ℕ) (5 : ℕ) := by
    refine ⟨fun dx dy hdx hdy => ?_⟩
    have hmiddle := hpixel 0 0 (by decide) (by decide)
    rw [add_zero] at hmiddle
    simp only [Symmetry.act, Bool.false_eq_true, if_false, hpixel dx dy hdx hdy, hmiddle,
      Units.val_one, one_mul]
  have hmax : image.IsLocalMaximum 70 (5 : ℕ) (5 : ℕ) :=
    (hwindow.isLocalMaximum_iff (hin _ rfl rfl) (hin _ hwidth hheight)).mpr
      (dots_isLocalMaximum n hn)
  rw [← mem_reported_iff (by omega) (by omega)] at hmax
  exact List.ne_nil_of_mem hmax

/-- A video whose second frame fails to load. -/
def dotVideo (n : ℕ) : Option Raster := if n = 1 then none else some (dots 24)

lemma dotVideo_eq {n : ℕ} {image : Raster} (h : dotVideo n = some image) : image = dots 24 := by
  rw [dotVideo] at h
  split_ifs at h
  exact (Option.some.inj h).symm

/-- In the third frame there are keypoints, wherever the solver moves them. -/
lemma dotVideo_fresh (hsolver : ∀ p, solver.rejects p = false)
    (h : Runs.after (processFrame solver ⟨768, 254⟩ 74) dotVideo emptyPipeline 3 = some s) :
    ∃ i < s.keypointsSize, (s.keypoints i).stale = false := by
  have hsound : Sound 24 32 74 s := by
    have hframes : ∀ n image, dotVideo n = some image →
        (image.width = 24 ∧ image.height = 32) ∧ FrameBuffers.Fit ⟨768, 254⟩ image := by
      intro n image himage
      obtain rfl := dotVideo_eq himage
      exact ⟨⟨rfl, rfl⟩, by decide⟩
    have hstart : emptyPipeline.keypointsSize = 0 := rfl
    obtain ⟨s', hs', hsound⟩ :=
      exists_after_sound hsolver hframes (by decide) (by decide) le_rfl hstart rfl 3
    obtain rfl := Option.some.inj (hs'.symm.trans h)
    exact hsound
  have hfit : FrameBuffers.Fit ⟨768, 254⟩ (dots 24) := by decide
  obtain ⟨levels, hlevels, hsame⟩ := framePyramid_spec hfit (by decide)
  have hfinest := hsame 0 (by omega)
  rw [Runs.after] at h
  obtain ⟨r, -, hlast⟩ := Option.bind_eq_some_iff.mp h
  have hbody : processPyramid solver 74 levels r = some s := by
    rw [← hlast, show dotVideo 2 = some (dots 24) from rfl, processFrame, hlevels]
    rfl
  exact processPyramid_fresh (hfinest.width ▸ by decide) (by decide)
    (dots_reported (by decide) hfinest) hbody hsound

theorem processFrame_run_dotVideo :
    ∃ s, Runs.after (processFrame ⟨fun _ => false, fun _ _ flow => flow⟩ ⟨768, 254⟩ 74) dotVideo
        emptyPipeline 3 = some s ∧
      Sound 24 32 74 s ∧ PatchesFrom (dots 24).level s ∧
      ∃ i < s.keypointsSize, (s.keypoints i).stale = false := by
  obtain ⟨s, hs, hsound, -, hpatches⟩ := processFrame_run 24 32 74 (by decide) (by decide) le_rfl
    ⟨768, 254⟩ ⟨fun _ => false, fun _ _ flow => flow⟩ (fun _ => rfl) dotVideo
    (fun n image himage => by
      obtain rfl := dotVideo_eq himage
      decide) emptyPipeline rfl rfl 3
  exact ⟨s, hs, hsound, hpatches 2 (dots 24) rfl rfl, dotVideo_fresh (fun _ => rfl) hs⟩

/-- A frame of 16x16 pixels makes the constructor read outside of its table. With 15 columns the
frame is processed and has a keypoint, and level 4 has no pixel to build its patch from. -/
theorem processFrame_smallFrames :
    Runs.after (processFrame ⟨fun _ => false, fun _ _ flow => flow⟩ ⟨256, 85⟩ 74)
        (fun _ => some smallRaster) emptyPipeline 1 = none ∧
      ∃ s, Runs.after (processFrame ⟨fun _ => false, fun _ _ flow => flow⟩ ⟨480, 146⟩ 74)
          (fun _ => some (dots 15)) emptyPipeline 1 = some s ∧
        (∃ i < s.keypointsSize, (s.keypoints i).stale = false) ∧
        ∀ x y, ¬ ((dots 15).level 4).Contains x y := by
  constructor
  · rw [Runs.after, Runs.after, Option.bind_some, processFrame,
      framePyramid_eq_none (by decide) (by decide)]
    rfl
  · have hfit : FrameBuffers.Fit ⟨480, 146⟩ (dots 15) := by decide
    obtain ⟨levels, hlevels, hsame⟩ := framePyramid_spec hfit (by decide)
    have hfinest := hsame 0 (by omega)
    have hstart : Sound 15 32 74 emptyPipeline :=
      ⟨Nat.zero_le _, fun i hi => absurd hi (Nat.not_lt_zero i), rfl⟩
    have hsolver : ∀ p, (⟨fun _ => false, fun _ _ flow => flow⟩ : Solver).rejects p = false :=
      fun _ => rfl
    obtain ⟨s, hs, hsound, -⟩ := processPyramid_sound levels hsolver hfinest.width hfinest.height
      (by decide) le_rfl hstart
    refine ⟨s, ?_, ?_, fun x y hin => ?_⟩
    · rw [Runs.after, Runs.after, Option.bind_some, processFrame, hlevels, Option.bind_eq_bind,
        Option.bind_some]
      exact hs
    · exact processPyramid_fresh (hfinest.width ▸ by decide) (by decide)
        (dots_reported (by decide) hfinest) hs hsound
    · have hwidth : ((dots 15).level 4).width = 0 := rfl
      rw [Raster.Contains, hwidth] at hin
      omega

end VioFrontend
