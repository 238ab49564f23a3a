import VioFrontend.FeatureTracking.Lanes

/-!
# Features next to rejected ones

A rejected feature breaks the loop over features off, so the features behind it in the list are
skipped at that level. Which features that touches depends on the stale flags and on the levels at
which features are rejected, and on nothing else.
-/

namespace VioFrontend

/-- The entry of a feature that is tracked as the only one. -/
def trackAlone (solver : Solver) (patches : PatchPyramid) (imagePyramid : ℕ → Raster)
    (previousKeypoints nextKeypoints : ℕ → KeyPoint) (k : ℕ) : KeyPoint :=
  trackFeatures solver (fun _ => patches k) imagePyramid (fun _ => previousKeypoints k)
    (fun _ => nextKeypoints k) 1 0

/-- Every feature that is not rejected comes out as if it were tracked alone. -/
def Independent (solver : Solver) (patches : PatchPyramid) (imagePyramid : ℕ → Raster)
    (previousKeypoints nextKeypoints : ℕ → KeyPoint) (n : ℕ) : Prop :=
  ∀ k < n, (∀ L < 5, ¬ Fires solver patches previousKeypoints L k) →
    trackFeatures solver patches imagePyramid previousKeypoints nextKeypoints n k
      = trackAlone solver patches imagePyramid previousKeypoints nextKeypoints k

/-- The stale flags of the features, and the levels at which they are rejected. -/
structure Pattern where
  stale : ℕ → Bool
  rejected : ℕ → ℕ → Bool

/-- The inner loop at a level is broken off before it comes to feature `k`. -/
def Pattern.BrokenOff (pattern : Pattern) (k L : ℕ) : Prop :=
  ∃ e < k, pattern.stale e = false ∧ pattern.rejected e L = true

/-- A stale feature is come to at some level; another one is rejected itself or come to at every
level. -/
def Pattern.Undisturbed (pattern : Pattern) (k : ℕ) : Prop :=
  if pattern.stale k then ∃ L < 5, ¬ pattern.BrokenOff k L
  else (∀ L < 5, pattern.rejected k L = false) → ∀ L < 5, ¬ pattern.BrokenOff k L

/-- The first `n` features show the pattern. -/
def Pattern.Fits (pattern : Pattern) (solver : Solver) (patches : PatchPyramid)
    (previousKeypoints : ℕ → KeyPoint) (n : ℕ) : Prop :=
  ∀ k < n, (previousKeypoints k).stale = pattern.stale k ∧
    ∀ L < 5, solver.rejects (patches k L) = pattern.rejected k L

section

variable {solver : Solver} {patches : PatchPyramid} {imagePyramid : ℕ → Raster}
  {previousKeypoints nextKeypoints : ℕ → KeyPoint} {n : ℕ} {pattern : Pattern}

lemma Pattern.Fits.fires_iff (h : pattern.Fits solver patches previousKeypoints n) {k L : ℕ}
    (hk : k < n) (hL : L < 5) :
    Fires solver patches previousKeypoints L k ↔
      pattern.stale k = false ∧ pattern.rejected k L = true := by
  rw [Fires, (h k hk).1, (h k hk).2 L hL]

/-- A feature is come to when the loop is not broken off before it or at it. -/
lemma Pattern.Fits.reached_iff (h : pattern.Fits solver patches previousKeypoints n) {k L : ℕ}
    (hk : k < n) (hL : L < 5) :
    Reached solver patches previousKeypoints k L ↔
      ¬ pattern.BrokenOff k L ∧ ¬ Fires solver patches previousKeypoints L k := by
  constructor
  · intro hreached
    refine ⟨?_, hreached k (Nat.lt_succ_self k)⟩
    rintro ⟨e, he, hfires⟩
    exact hreached e (Nat.lt_succ_of_lt he) ((h.fires_iff (he.trans hk) hL).mpr hfires)
  · rintro ⟨hbroken, hfires⟩ e he
    rcases Nat.lt_succ_iff_lt_or_eq.mp he with hlt | rfl
    · exact fun hfires => hbroken ⟨e, hlt, (h.fires_iff (hlt.trans hk) hL).mp hfires⟩
    · exact hfires

/-- Tracked alone, a feature is come to unless it is rejected itself. -/
lemma reached_alone {k L : ℕ} (h : ¬ Fires solver patches previousKeypoints L k) :
    Reached solver (fun _ => patches k) (fun _ => previousKeypoints k) 0 L :=
  fun _ _ => h

/-- An undisturbed feature that is not rejected comes out as if it were tracked alone. -/
lemma trackFeatures_eq_trackAlone (h : pattern.Fits solver patches previousKeypoints n) {k : ℕ}
    (hk : k < n) (hrejected : ∀ L < 5, ¬ Fires solver patches previousKeypoints L k)
    (hundisturbed : pattern.Undisturbed k) :
    trackFeatures solver patches imagePyramid previousKeypoints nextKeypoints n k
      = trackAlone solver patches imagePyramid previousKeypoints nextKeypoints k := by
  rw [Pattern.Undisturbed, ← (h k hk).1] at hundisturbed
  cases hstale : (previousKeypoints k).stale with
  | true =>
    rw [if_pos hstale] at hundisturbed
    obtain ⟨L, hL, hbroken⟩ := hundisturbed
    rw [trackAlone, trackFeatures_of_stale hk hstale hL
      ((h.reached_iff hk hL).mpr ⟨hbroken, hrejected L hL⟩),
      trackFeatures_of_stale one_pos hstale hL (reached_alone (hrejected L hL))]
  | false =>
    rw [hstale, if_neg Bool.false_ne_true] at hundisturbed
    have hnot : ∀ L < 5, pattern.rejected k L = false := by
      intro L hL
      have hfires := hrejected L hL
      rw [h.fires_iff hk hL, ← (h k hk).1] at hfires
      simpa [hstale] using hfires
    have hreached : ∀ L < 5, Reached solver patches previousKeypoints k L := fun L hL =>
      (h.reached_iff hk hL).mpr ⟨hundisturbed hnot L hL, hrejected L hL⟩
    rw [trackAlone, trackFeatures_of_reached hk hstale hreached,
      trackFeatures_of_reached one_pos hstale fun L hL => reached_alone (hrejected L hL)]

end

/-! ### A feature that moves -/

/-- A patch that gets brighter to the lower right. Against a black image every solve moves it by
`5 / 18` in both directions. -/
def movingPatch : Patch := ⟨⟨10, 10⟩, fun k => ((k / 9) * (k % 9) : ℕ)⟩

lemma movingPatch_flow : (inverse (structureMatrix movingPatch)).map
    (fun Sinv => incrementalFlow Sinv movingPatch ⟨0, fun _ => 0⟩) = some ⟨5 / 18, 5 / 18⟩ := by
  decide +kernel

lemma residual_movingPatch : residual movingPatch ⟨0, fun _ => 0⟩ < fltMax := by
  decide +kernel

lemma levelDisplacement_movingPatch (incoming : Option Vec2) :
    levelDisplacement movingPatch blackRaster incoming
      = incoming.map fun v => ⟨5 / 18, 5 / 18⟩ + v := by
  cases incoming with
  | none => rfl
  | some v =>
    obtain ⟨Sinv, hSinv, hflow⟩ := Option.map_eq_some_iff.mp movingPatch_flow
    -- the second residual is the first one again, so there is one increment
    have hresidual : ∀ u, residual movingPatch (nextPatch movingPatch blackRaster u)
        = residual movingPatch ⟨0, fun _ => 0⟩ := fun u => by
      rw [nextPatch, Patch.ofImage_blackRaster]
      rfl
    have hincrement : ∀ u, incrementalFlow Sinv movingPatch (nextPatch movingPatch blackRaster u)
        = ⟨5 / 18, 5 / 18⟩ := fun u => by
      rw [nextPatch, Patch.ofImage_blackRaster, ← hflow]
      rfl
    have hzero : (0 : Vec2) + ⟨5 / 18, 5 / 18⟩ = ⟨5 / 18, 5 / 18⟩ := by ext <;> simp
    have hrun : minimise movingPatch blackRaster v (some Sinv) 50 fltMax 0
        = some ⟨5 / 18, 5 / 18⟩ := by
      rw [minimise_of_large, hincrement, hresidual, hzero, minimise_of_not_lt]
      · rw [hresidual]
        exact lt_irrefl _
      · rw [hresidual]
        exact residual_movingPatch
      · rw [hincrement]
        decide +kernel
    rw [levelDisplacement, hSinv, Option.bind_eq_bind, Option.bind_some, hrun]
    rfl

section

variable {reject : Mat 2 2 → Bool} {reached : ℕ → Prop} [DecidablePred reached]

/-- The run of the moving feature ends elsewhere when a level is left out. -/
lemma slotRun_movingPatch (hskipped : ∃ L < 5, ¬ reached L) :
    (slotRun (lucasKanadeRejecting reject) (fun _ => blackRaster) (fun _ => movingPatch) false
      reached [4, 3, 2, 1, 0] ⟨fun _ => some 0, ⟨⟨-1000, 0⟩, false⟩⟩).keypoint.point.x ≠ 22 := by
  have hsplit : ¬ (reached 4 ∧ reached 3 ∧ reached 2 ∧ reached 1 ∧ reached 0) := by
    rintro ⟨h4, h3, h2, h1, h0⟩
    obtain ⟨L, hL, hnot⟩ := hskipped
    interval_cases L <;> exact hnot ‹_›
  simp only [slotRun, List.foldl_cons, List.foldl_nil, slotStep, lucasKanadeRejecting,
    levelDisplacement_movingPatch]
  by_cases h0 : reached 0 <;> by_cases h1 : reached 1 <;> by_cases h2 : reached 2 <;>
    by_cases h3 : reached 3 <;> by_cases h4 : reached 4 <;>
    simp [h0, h1, h2, h3, h4, trackedKeypoint, roundCoordinate, roundToInt, movingPatch,
      patchSize] at hsplit ⊢ <;>
    norm_num

end

/-- Tracked alone it moves by `31 * 5 / 18`. -/
lemma trackedKeypoint_movingPatch (reject : Mat 2 2 → Bool) :
    trackedKeypoint movingPatch.origin (featureDisplacement (lucasKanadeRejecting reject)
      (fun _ => blackRaster) fun _ => movingPatch) blackRaster = ⟨⟨22, 22⟩, false⟩ := by
  have hdisplacement : featureDisplacement (lucasKanadeRejecting reject) (fun _ => blackRaster)
      (fun _ => movingPatch) = some ⟨155 / 18, 155 / 18⟩ := by
    simp only [featureDisplacement, incomingFlow, lucasKanadeRejecting,
      levelDisplacement_movingPatch, Option.map_some, Option.some.injEq]
    ext <;> norm_num
  rw [hdisplacement]
  decide +kernel

/-! ### The patterns that disturb no feature -/

/-- The rejection test of the following lists. -/
def rejectsSingular (S : Mat 2 2) : Bool := decide (determinant S = 0)

namespace Pattern

/-- Black patches where the pattern has a rejection. -/
def patches (pattern : Pattern) : PatchPyramid := fun k L =>
  if L < 5 ∧ pattern.rejected k L = true then ⟨0, fun _ => 0⟩ else movingPatch

def keypoints (pattern : Pattern) : ℕ → KeyPoint := fun k => ⟨⟨13, 13⟩, pattern.stale k⟩

/-- What the entries hold before the call. -/
def leftOver : ℕ → KeyPoint := fun _ => ⟨⟨-1000, 0⟩, false⟩

lemma rejectsSingular_movingPatch : rejectsSingular (structureMatrix movingPatch) = false := by
  decide +kernel

lemma rejectsSingular_black : rejectsSingular (structureMatrix ⟨0, fun _ => 0⟩) = true := by
  decide +kernel

variable (pattern : Pattern) (n : ℕ)

lemma fits_patches :
    pattern.Fits (lucasKanadeRejecting rejectsSingular) pattern.patches pattern.keypoints n := by
  intro k _
  refine ⟨rfl, fun L hL => ?_⟩
  cases hrejected : pattern.rejected k L with
  | true => simp only [lucasKanadeRejecting, patches, hL, hrejected, and_self, if_true,
      rejectsSingular_black]
  | false => simp only [lucasKanadeRejecting, patches, hrejected, Bool.false_eq_true, and_false,
      if_false, rejectsSingular_movingPatch]

variable {pattern n}

/-- The features of this list are undisturbed when they come out as if tracked alone. -/
lemma undisturbed_of_independent
    (h : Independent (lucasKanadeRejecting rejectsSingular) pattern.patches (fun _ => blackRaster)
      pattern.keypoints leftOver n) {k : ℕ} (hk : k < n) : pattern.Undisturbed k := by
  have hfits := pattern.fits_patches n
  have hfires : ∀ L < 5, (pattern.stale k = true ∨ pattern.rejected k L = false) →
      ¬ Fires (lucasKanadeRejecting rejectsSingular) pattern.patches pattern.keypoints L k := by
    intro L hL hnot
    rw [hfits.fires_iff hk hL]
    rintro ⟨hfresh, hrejected⟩
    rcases hnot with hstale | hnot
    · exact Bool.false_ne_true (hfresh.symm.trans hstale)
    · exact Bool.false_ne_true (hnot.symm.trans hrejected)
  rw [Undisturbed]
  split_ifs with hstale
  · by_contra hbroken
    push Not at hbroken
    have halone := h k hk fun L hL => hfires L hL (Or.inl hstale)
    have hnot : ∀ L < 5, ¬ Reached (lucasKanadeRejecting rejectsSingular) pattern.patches
        pattern.keypoints k L := fun L hL hreached =>
      ((hfits.reached_iff hk hL).mp hreached).1 (hbroken L hL)
    rw [trackAlone, trackFeatures_of_stale one_pos hstale (L := 0) (by omega)
      (reached_alone (hfires 0 (by omega) (Or.inl hstale))), trackFeatures_eq hk] at halone
    simp [slotRun, hnot, leftOver] at halone
  · intro hrejected L hL hbroken
    have hfresh : pattern.stale k = false := by simpa using hstale
    have hpatch : pattern.patches k = fun _ => movingPatch := by
      funext L
      refine if_neg ?_
      rintro ⟨hL, hreject⟩
      exact Bool.false_ne_true ((hrejected L hL).symm.trans hreject)
    have hnot :
        ¬ Reached (lucasKanadeRejecting rejectsSingular) pattern.patches pattern.keypoints k L :=
      fun hreached => ((hfits.reached_iff hk hL).mp hreached).1 hbroken
    have halone := h k hk fun L hL => hfires L hL (Or.inr (hrejected L hL))
    rw [trackAlone, trackFeatures_of_reached one_pos hfresh fun L hL =>
      reached_alone (hfires L hL (Or.inr (hrejected L hL))), trackFeatures_eq hk, hpatch,
      trackedKeypoint_movingPatch] at halone
    have hstart : (pattern.keypoints k).stale = false := hfresh
    rw [hstart] at halone
    exact slotRun_movingPatch ⟨L, hL, hnot⟩ (congrArg (fun kp => kp.point.x) halone)

end Pattern

/-- All lists with a pattern have the features tracked independently exactly when the pattern
disturbs no feature. -/
theorem independent_iff (pattern : Pattern) (n : ℕ) :
    (∀ (reject : Mat 2 2 → Bool) (patches : PatchPyramid) (imagePyramid : ℕ → Raster)
        (previousKeypoints nextKeypoints : ℕ → KeyPoint),
      pattern.Fits (lucasKanadeRejecting reject) patches previousKeypoints n →
      Independent (lucasKanadeRejecting reject) patches imagePyramid previousKeypoints
        nextKeypoints n) ↔
      ∀ k < n, pattern.Undisturbed k := by
  constructor
  · intro h k hk
    exact Pattern.undisturbed_of_independent
      (h rejectsSingular pattern.patches (fun _ => blackRaster)
      pattern.keypoints Pattern.leftOver (pattern.fits_patches n)) hk
  · intro h reject patches imagePyramid previousKeypoints nextKeypoints hfits k hk hrejected
    exact trackFeatures_eq_trackAlone hfits hk hrejected (h k hk)

/-- Two features of which the first one is rejected at the coarsest level. -/
def firstRejected : Pattern where
  stale _ := false
  rejected k L := decide (k = 0 ∧ L = 4)

theorem not_independent_firstRejected :
    ¬ Independent (lucasKanadeRejecting rejectsSingular) firstRejected.patches
      (fun _ => blackRaster)
      firstRejected.keypoints Pattern.leftOver 2 := by
  intro h
  have hundisturbed := Pattern.undisturbed_of_independent h (k := 1) (by omega)
  simp only [Pattern.Undisturbed, firstRejected, Bool.false_eq_true, if_false] at hundisturbed
  exact hundisturbed (fun L _ => rfl) 4 (by omega) ⟨0, by omega, rfl, rfl⟩

end VioFrontend
