import VioFrontend.FeatureTracking.Basic

/-!
# One feature at a time

The loops of `trackFeatures` go level by level over all features, but a step for one feature
touches only its own entries of the flow table and of the keypoints. So what happens to a feature
is a run of `slotStep` over the levels at which the inner loop comes as far as the feature
(`trackFeatures_eq`).
-/

namespace VioFrontend

/-- The entries of one feature. -/
structure Slot where
  flow : ℕ → Option Vec2
  keypoint : KeyPoint

def Tracking.slot (s : Tracking) (k : ℕ) : Slot := ⟨s.flow k, s.nextKeypoints k⟩

section

variable (solver : Solver) (imagePyramid : ℕ → Raster)

/-- The step at one level for a feature with the given patches. -/
def slotStep (patch : ℕ → Patch) (stale : Bool) (pyramidLevel : ℕ) (x : Slot) : Slot :=
  if stale then { x with keypoint := { x.keypoint with stale := true } }
  else
    let displacement := solver.displacement (patch pyramidLevel) (imagePyramid pyramidLevel)
      (x.flow pyramidLevel)
    let upsampled := displacement.map ((2 : ℚ) • ·)
    if 0 < pyramidLevel then
      { x with flow := Function.update x.flow (pyramidLevel - 1) upsampled }
    else { x with keypoint := trackedKeypoint (patch 0).origin displacement (imagePyramid 0) }

/-- The steps at the levels that satisfy `reached`. -/
def slotRun (patch : ℕ → Patch) (stale : Bool) (reached : ℕ → Prop) [DecidablePred reached]
    (levels : List ℕ) (x : Slot) : Slot :=
  levels.foldl (fun x pyramidLevel =>
    if reached pyramidLevel then slotStep solver imagePyramid patch stale pyramidLevel x else x) x

end

variable {solver : Solver} {patches : PatchPyramid} {imagePyramid : ℕ → Raster}
  {previousKeypoints : ℕ → KeyPoint}

/-- Feature `k` is rejected at a level when the inner loop comes to it. -/
def Fires (solver : Solver) (patches : PatchPyramid) (previousKeypoints : ℕ → KeyPoint)
    (pyramidLevel k : ℕ) : Prop :=
  (previousKeypoints k).stale = false ∧ solver.rejects (patches k pyramidLevel) = true

instance (pyramidLevel k : ℕ) :
    Decidable (Fires solver patches previousKeypoints pyramidLevel k) :=
  inferInstanceAs (Decidable (_ ∧ _))

/-- The inner loop makes the step for feature `k`: neither it nor one before it is rejected. -/
def Reached (solver : Solver) (patches : PatchPyramid) (previousKeypoints : ℕ → KeyPoint)
    (k pyramidLevel : ℕ) : Prop :=
  ∀ e < k + 1, ¬ Fires solver patches previousKeypoints pyramidLevel e

instance (k : ℕ) : DecidablePred (Reached solver patches previousKeypoints k) :=
  fun _ => inferInstanceAs (Decidable (∀ e < _, _))

lemma slot_keepStale {j k pyramidLevel : ℕ} {s : Tracking}
    (hstale : (previousKeypoints k).stale = true) :
    (keepStale k s).slot j = if j = k then
      slotStep solver imagePyramid (patches k) (previousKeypoints k).stale pyramidLevel (s.slot k)
    else s.slot j := by
  rcases eq_or_ne j k with rfl | hne
  · simp [keepStale, Tracking.slot, slotStep, hstale]
  · simp [keepStale, Tracking.slot, hne]

lemma slot_trackFeature {j k pyramidLevel : ℕ} {s : Tracking}
    (hstale : (previousKeypoints k).stale = false) :
    (trackFeature solver patches imagePyramid pyramidLevel k s).slot j = if j = k then
      slotStep solver imagePyramid (patches k) (previousKeypoints k).stale pyramidLevel (s.slot k)
    else s.slot j := by
  rcases eq_or_ne j k with rfl | hne
  · by_cases hlevel : 0 < pyramidLevel
    · simp [trackFeature, Tracking.slot, slotStep, hstale, hlevel]
    · obtain rfl : pyramidLevel = 0 := by omega
      simp [trackFeature, Tracking.slot, slotStep, hstale]
  · by_cases hlevel : 0 < pyramidLevel <;>
      simp [trackFeature, Tracking.slot, hlevel, hne]

/-- The inner loop from feature `a` on makes the step for the features before the first one that
is rejected. -/
lemma slot_trackLevel_range' {j pyramidLevel : ℕ} (n a : ℕ) (s : Tracking) :
    (trackLevel solver patches imagePyramid previousKeypoints pyramidLevel
      (List.range' a n) s).slot j
      = if (a ≤ j ∧ j < a + n) ∧
          ∀ e, a ≤ e → e ≤ j → ¬ Fires solver patches previousKeypoints pyramidLevel e then
        slotStep solver imagePyramid (patches j) (previousKeypoints j).stale pyramidLevel (s.slot j)
      else s.slot j := by
  induction n generalizing a s with
  | zero => rw [if_neg (by omega)]; rfl
  | succ n ih =>
    -- both ways on go through the step for feature `a`, which is not rejected
    have hnext : ∀ s' : Tracking, ¬ Fires solver patches previousKeypoints pyramidLevel a →
        (s'.slot j = if j = a then slotStep solver imagePyramid (patches a)
          (previousKeypoints a).stale pyramidLevel (s.slot a) else s.slot j) →
        (trackLevel solver patches imagePyramid previousKeypoints pyramidLevel
            (List.range' (a + 1) n) s').slot j
          = if (a ≤ j ∧ j < a + (n + 1)) ∧
              ∀ e, a ≤ e → e ≤ j → ¬ Fires solver patches previousKeypoints pyramidLevel e then
            slotStep solver imagePyramid (patches j) (previousKeypoints j).stale pyramidLevel
              (s.slot j)
          else s.slot j := by
      intro s' hfires hslot
      rw [ih, hslot]
      rcases eq_or_ne j a with rfl | hne
      · have hthis : ∀ e, j ≤ e → e ≤ j → ¬ Fires solver patches previousKeypoints pyramidLevel e :=
          fun e he he' => le_antisymm he he' ▸ hfires
        rw [if_neg (by omega), if_pos rfl, if_pos ⟨by omega, hthis⟩]
      · have hiff : ((a + 1 ≤ j ∧ j < a + 1 + n) ∧
            ∀ e, a + 1 ≤ e → e ≤ j → ¬ Fires solver patches previousKeypoints pyramidLevel e) ↔
            ((a ≤ j ∧ j < a + (n + 1)) ∧
              ∀ e, a ≤ e → e ≤ j → ¬ Fires solver patches previousKeypoints pyramidLevel e) := by
          constructor
          · rintro ⟨hj, h⟩
            refine ⟨by omega, fun e he he' => ?_⟩
            rcases he.eq_or_lt with rfl | hlt
            · exact hfires
            · exact h e hlt he'
          · rintro ⟨hj, h⟩
            exact ⟨by omega, fun e he he' => h e (by omega) he'⟩
        simp only [hiff, if_neg hne]
    rw [List.range'_succ, trackLevel]
    by_cases hstale : (previousKeypoints a).stale = true
    · rw [if_pos hstale]
      exact hnext _ (fun h => by simp [h.1] at hstale) (slot_keepStale hstale)
    · rw [if_neg hstale]
      have hfresh : (previousKeypoints a).stale = false := by simpa using hstale
      by_cases hrejects : solver.rejects (patches a pyramidLevel) = true
      · rw [if_pos hrejects, if_neg]
        rintro ⟨⟨hj, -⟩, h⟩
        exact h a le_rfl hj ⟨hfresh, hrejects⟩
      · rw [if_neg hrejects]
        exact hnext _ (fun h => hrejects h.2) (slot_trackFeature hfresh)

lemma slot_trackLevel {j pyramidLevel n : ℕ} {s : Tracking} (hj : j < n) :
    (trackLevel solver patches imagePyramid previousKeypoints pyramidLevel (List.range n) s).slot j
      = if Reached solver patches previousKeypoints j pyramidLevel then
        slotStep solver imagePyramid (patches j) (previousKeypoints j).stale pyramidLevel (s.slot j)
      else s.slot j := by
  have hiff : ((0 ≤ j ∧ j < 0 + n) ∧
      ∀ e, 0 ≤ e → e ≤ j → ¬ Fires solver patches previousKeypoints pyramidLevel e) ↔
      Reached solver patches previousKeypoints j pyramidLevel := by
    constructor
    · rintro ⟨-, h⟩ e he
      exact h e (Nat.zero_le e) (Nat.lt_succ_iff.mp he)
    · intro h
      exact ⟨by omega, fun e _ he => h e (Nat.lt_succ_of_le he)⟩
  rw [List.range_eq_range', slot_trackLevel_range']
  simp only [hiff]

/-- The keypoint of a feature after the call is the one after its own run. -/
lemma trackFeatures_eq {nextKeypoints : ℕ → KeyPoint} {n k : ℕ} (hk : k < n) :
    trackFeatures solver patches imagePyramid previousKeypoints nextKeypoints n k
      = (slotRun solver imagePyramid (patches k) (previousKeypoints k).stale
          (Reached solver patches previousKeypoints k) [4, 3, 2, 1, 0]
          ⟨fun _ => some 0, nextKeypoints k⟩).keypoint := by
  simp only [trackFeatures, slotRun, List.foldl_cons, List.foldl_nil]
  have hslot : ∀ s : Tracking, s.nextKeypoints k = (s.slot k).keypoint := fun _ => rfl
  simp only [hslot, slot_trackLevel hk]
  rfl

/-! ### Runs through all levels -/

/-- The flow that comes in after the solves at the `d` coarsest levels. -/
def incomingFlow (solver : Solver) (imagePyramid : ℕ → Raster) (patch : ℕ → Patch) :
    ℕ → Option Vec2
  | 0 => some 0
  | d + 1 => (solver.displacement (patch (4 - d)) (imagePyramid (4 - d))
      (incomingFlow solver imagePyramid patch d)).map ((2 : ℚ) • ·)

/-- The displacement at the finest level. -/
def featureDisplacement (solver : Solver) (imagePyramid : ℕ → Raster) (patch : ℕ → Patch) :
    Option Vec2 :=
  solver.displacement (patch 0) (imagePyramid 0) (incomingFlow solver imagePyramid patch 4)

/-- What the coarsest level starts from and every solve keeps holds of the flow that comes in at
the finest level. -/
lemma incomingFlow_induct {solver : Solver} {imagePyramid : ℕ → Raster} {patch : ℕ → Patch}
    {P : ℕ → Option Vec2 → Prop} (hzero : P 0 (some 0))
    (hlevel : ∀ d < 4, ∀ incoming, P d incoming →
      P (d + 1) ((solver.displacement (patch (4 - d)) (imagePyramid (4 - d)) incoming).map
        ((2 : ℚ) • ·))) :
    P 4 (incomingFlow solver imagePyramid patch 4) := by
  have hflow : ∀ d ≤ 4, P d (incomingFlow solver imagePyramid patch d) := by
    intro d hd
    induction d with
    | zero => exact hzero
    | succ d ih => exact hlevel d (by omega) _ (ih (by omega))
  exact hflow 4 le_rfl

/-- Patches and images with the same solves at all levels give the same displacement. -/
lemma featureDisplacement_congr {imagePyramid' : ℕ → Raster} {patch patch' : ℕ → Patch}
    (h : ∀ L < 5, ∀ incoming, solver.displacement (patch' L) (imagePyramid' L) incoming
      = solver.displacement (patch L) (imagePyramid L) incoming) :
    featureDisplacement solver imagePyramid' patch'
      = featureDisplacement solver imagePyramid patch := by
  have hflow : incomingFlow solver imagePyramid' patch' 4
      = incomingFlow solver imagePyramid patch 4 := by
    refine incomingFlow_induct
      (P := fun d flow => flow = incomingFlow solver imagePyramid patch d) rfl
      fun d hd flow hflow => ?_
    rw [hflow, h _ (by omega), incomingFlow]
  rw [featureDisplacement, hflow, h 0 (by omega), featureDisplacement]

/-- A feature that is reached at every level gets the keypoint of its displacement. -/
lemma trackFeatures_of_reached {nextKeypoints : ℕ → KeyPoint} {n k : ℕ} (hk : k < n)
    (hstale : (previousKeypoints k).stale = false)
    (hreached : ∀ L < 5, Reached solver patches previousKeypoints k L) :
    trackFeatures solver patches imagePyramid previousKeypoints nextKeypoints n k
      = trackedKeypoint (patches k 0).origin
          (featureDisplacement solver imagePyramid (patches k)) (imagePyramid 0) := by
  rw [trackFeatures_eq hk]
  simp [slotRun, slotStep, hstale, hreached, featureDisplacement, incomingFlow]

/-- A feature that was stale stays stale when it is reached at some level. -/
lemma trackFeatures_of_stale {nextKeypoints : ℕ → KeyPoint} {n k L : ℕ} (hk : k < n)
    (hstale : (previousKeypoints k).stale = true) (hL : L < 5)
    (hreached : Reached solver patches previousKeypoints k L) :
    trackFeatures solver patches imagePyramid previousKeypoints nextKeypoints n k
      = { nextKeypoints k with stale := true } := by
  rw [trackFeatures_eq hk]
  simp only [slotRun, slotStep, hstale, if_true, List.foldl_cons, List.foldl_nil]
  interval_cases L <;> simp only [hreached, if_true] <;> split_ifs <;> rfl

/-- Nothing is in the way of any feature when the solver rejects none. -/
lemma reached_of_not_rejects (hsolver : ∀ p, solver.rejects p = false) (k L : ℕ) :
    Reached solver patches previousKeypoints k L := by
  rintro e - ⟨-, hrejects⟩
  simp [hsolver] at hrejects

end VioFrontend
