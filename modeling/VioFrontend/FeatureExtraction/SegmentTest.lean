import VioFrontend.FeatureExtraction.Candidate

/-!
# The segment test

The FAST test of a pixel in its own terms, at a threshold that is any integer. A pixel passes at
the thresholds below its best contrast, so the score of a pixel that passes is the largest
threshold at which it still passes, whatever the threshold it is computed with.
-/

namespace VioFrontend

/-- Nine consecutive points of the circle are all darker than the centre by more than the
threshold, or all brighter. -/
def Raster.SegmentTest (img : Raster) (x y threshold : ℤ) : Prop :=
  ∃ k < 16, (∀ i < 9, ((img.circle x y (k + i)).toNat : ℤ) < (img.pixel x y).toNat - threshold) ∨
    ∀ i < 9, ((img.circle x y (k + i)).toNat : ℤ) > (img.pixel x y).toNat + threshold

variable {img : Raster} {x y : ℤ}

lemma segmentTest_iff {threshold : ℤ} :
    img.SegmentTest x y threshold ↔ threshold < bestContrast (img.contrast x y) := by
  have hdark : ∀ k, ((img.circle x y k).toNat : ℤ) < (img.pixel x y).toNat - threshold ↔
      threshold < img.contrast x y k := fun k => lt_sub_comm
  have hbright : ∀ k, ((img.circle x y k).toNat : ℤ) > (img.pixel x y).toNat + threshold ↔
      threshold < -img.contrast x y k := fun k => by
    rw [Raster.contrast, neg_sub, gt_iff_lt, lt_sub_iff_add_lt']
  simp only [Raster.SegmentTest, hdark, hbright, lt_bestContrast_iff_arc]

lemma cornerScore_of_not_segmentTest {threshold : UInt8}
    (h : ¬ img.SegmentTest x y threshold.toNat) : img.cornerScore threshold x y = 0 :=
  if_neg (segmentTest_iff.not.mp h)

/-- The pixel passes at every threshold up to one less than its best contrast. -/
lemma isGreatest_segmentTest :
    IsGreatest {threshold | img.SegmentTest x y threshold}
      (bestContrast (img.contrast x y) - 1) := by
  constructor
  · exact segmentTest_iff.mpr (sub_one_lt _)
  · intro threshold h
    exact Int.le_sub_one_of_lt (segmentTest_iff.mp h)

/-! ### The score loops -/

/-- The score loops return one less than the best contrast, or than the threshold they start from.
For a pixel that passes this is the largest threshold at which it does. -/
theorem calculateCornerScore_isGreatest (img : Raster) (x y : ℤ) (hin : img.CircleInside x y)
    (threshold : ℤ) :
    ∃ score, calculateCornerScore img.data (y * img.width + x) (patternOffset img.width) threshold
        = some score ∧
      score = max threshold (bestContrast (img.contrast x y)) - 1 ∧
      (img.SegmentTest x y threshold →
        IsGreatest {threshold | img.SegmentTest x y threshold} score ∧
        ∀ other, img.SegmentTest x y other →
          calculateCornerScore img.data (y * img.width + x) (patternOffset img.width) other
            = some score) := by
  refine ⟨_, calculateCornerScore_spec hin threshold, rfl, fun hpass => ?_⟩
  have hmax : ∀ other, img.SegmentTest x y other →
      max other (bestContrast (img.contrast x y)) = bestContrast (img.contrast x y) :=
    fun other h => max_eq_right (segmentTest_iff.mp h).le
  rw [hmax threshold hpass]
  refine ⟨isGreatest_segmentTest, fun other h => ?_⟩
  rw [calculateCornerScore_spec hin other, hmax other h]

/-- A bright pixel on black ground. -/
def brightPixel : Raster := ⟨7, 7, fun x y => if x = 3 ∧ y = 3 then 200 else 0⟩

lemma bestContrast_brightPixel : bestContrast (brightPixel.contrast 3 3) = 200 := by
  decide +kernel

theorem calculateCornerScore_brightPixel :
    IsGreatest {threshold | brightPixel.SegmentTest 3 3 threshold} 199 := by
  obtain ⟨score, -, hscore, hgreatest⟩ := calculateCornerScore_isGreatest brightPixel 3 3
    ⟨by decide, by decide⟩ 20
  rw [bestContrast_brightPixel] at hscore
  obtain rfl : score = 199 := hscore
  exact (hgreatest ⟨0, by decide, Or.inl (by decide)⟩).1

/-! ### The candidate evaluation -/

/-- With its lookup table, the candidate evaluation returns 0 for a pixel that fails the segment
test and one less than the best contrast for one that passes. The result fits into a byte, and
only at threshold 0 it does not tell every pixel that passes from one that fails. -/
theorem evaluateCornerCandidate_segmentTest (img : Raster) (x y : ℤ) (hin : img.CircleInside x y)
    (threshold : UInt8) :
    ∃ table score, thresholdLookupTable threshold.toNat = some table ∧
      evaluateCornerCandidate img.data (y * img.width + x) threshold.toNat table
        (patternOffset img.width) = some score ∧
      (¬ img.SegmentTest x y threshold.toNat → score = 0) ∧
      (img.SegmentTest x y threshold.toNat → score = bestContrast (img.contrast x y) - 1) ∧
      (0 ≤ score ∧ score ≤ 254) ∧
      (img.SegmentTest x y threshold.toNat →
        (score = 0 ↔ threshold = 0 ∧ bestContrast (img.contrast x y) = 1)) := by
  obtain ⟨table, htable, hlookup⟩ := thresholdLookupTable_spec threshold.toNat
  refine ⟨table, _, htable, evaluateCornerCandidate_spec hin hlookup, ?_, ?_,
    img.cornerScore_bound threshold x y, ?_⟩
  · intro hfail
    rw [segmentTest_iff] at hfail
    exact if_neg hfail
  · intro hpass
    exact if_pos (segmentTest_iff.mp hpass)
  · intro hpass
    have hbest := segmentTest_iff.mp hpass
    rw [Raster.cornerScore, if_pos hbest, ← UInt8.toNat_inj, UInt8.toNat_zero]
    omega

theorem evaluateCornerCandidate_brightPixel :
    ∃ table, thresholdLookupTable (10 : UInt8).toNat = some table ∧
      evaluateCornerCandidate brightPixel.data (3 * brightPixel.width + 3) (10 : UInt8).toNat table
        (patternOffset brightPixel.width) = some 199 := by
  obtain ⟨table, score, htable, hscore, -, hpass, -⟩ := evaluateCornerCandidate_segmentTest
    brightPixel 3 3 ⟨by decide, by decide⟩ 10
  refine ⟨table, htable, ?_⟩
  rw [hscore, hpass ⟨0, by decide, Or.inl (by decide)⟩, bestContrast_brightPixel]
  rfl

end VioFrontend
