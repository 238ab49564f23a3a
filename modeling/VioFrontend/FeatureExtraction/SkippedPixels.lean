import VioFrontend.FeatureExtraction.Scan

/-!
# Pixels that the scan skips

The pixels that a group passes over without evaluating them. Lane `k` of a threshold mask belongs
to the `k`-th pixel of the group, and a lane that is 0 after either of the two tests is a pixel that
fails the segment test.
-/

namespace VioFrontend

open Checked PackedBytes

variable {img : Raster} {threshold : UInt8} {x y : ℤ}

lemma thresholdMasks_eq (img : Raster) (threshold : UInt8) (hx : 3 ≤ x) (hw : x + 6 < img.width)
    (hrow : 3 ≤ y ∧ y + 3 < img.height) :
    thresholdMasks img.data img.width threshold (y * img.width + x)
      = some ((img.firstMasks threshold x y).combined,
          (img.secondMasks threshold x y).combined) := by
  simp only [thresholdMasks, packedBounds_data img threshold hx hw hrow,
    testDiagonal_data _ _ _ _ hx hw hrow, Option.bind_eq_bind, Option.bind_some,
    Fin.coe_ofNat_eq_mod, Nat.reduceMod]
  rfl

/-- A group that its tests end moves on over pixels that fail the segment test. -/
lemma scanGroup_passes {c : RowContext} {s s' : RowScan} (himage : c.image = img.data)
    (hwidth : c.width = img.width) (hptr : s.pixelPtr = y * img.width + x) (hx : 3 ≤ x)
    (hw : x + 6 < img.width) (hrow : 3 ≤ y ∧ y + 3 < img.height) {back : ℤ}
    (hback : img.groupBack c.threshold x y = some back) (h : scanGroup c s = some s') :
    ∃ passed : ℕ, (1 ≤ passed ∧ passed ≤ 4) ∧ s'.i = s.i + passed ∧
      s'.pixelPtr = s.pixelPtr + passed ∧
      ∀ k < passed, ¬ img.SegmentTest (x + k) y c.threshold.toNat := by
  obtain ⟨hb, hfail⟩ := Raster.groupBack_spec hback
  have htest := testGroup_spec img c.threshold hx hw hrow
  obtain ⟨scores, -, hstep⟩ := Option.bind_eq_some_iff.mp h
  simp only [himage, hwidth, hptr, htest, hback, Option.bind_eq_bind, Option.bind_some,
    Option.pure_def, Option.some.injEq] at hstep
  subst hstep
  refine ⟨(4 - back).toNat, ⟨by omega, by omega⟩, ?_, ?_, fun k hk => hfail k (by omega)⟩
  · simp only [RowScan.advance]
    omega
  · simp only [RowScan.advance]
    omega

lemma groupBack_eq_none (h : img.groupBack threshold x y = none) :
    stepBack (img.firstMasks threshold x y).combined = none ∧
      stepBack (img.secondMasks threshold x y).combined = none := by
  rw [Raster.groupBack] at h
  split at h
  · cases h
  · exact ⟨‹_›, h⟩

/-- A lane of the threshold mask that is 0 after one of the tests belongs to a pixel that fails the
segment test. A group either goes on to evaluate its four pixels or moves on by up to four pixels,
none of which is a corner. -/
theorem thresholdMasks_reject (img : Raster) (threshold : UInt8) (x y : ℤ) (hx : 3 ≤ x)
    (hw : x + 6 < img.width) (hrow : 3 ≤ y ∧ y + 3 < img.height) :
    ∃ first second, thresholdMasks img.data img.width threshold (y * img.width + x)
        = some (first, second) ∧
      (∀ k < 4, lane first k = 0 ∨ lane second k = 0 →
        ¬ img.SegmentTest (x + k) y threshold.toNat) ∧
      ∀ (c : RowContext) (s s' : RowScan), c.image = img.data → c.width = img.width →
        c.threshold = threshold → s.pixelPtr = y * img.width + x → scanGroup c s = some s' →
          (stepBack first = none ∧ stepBack second = none) ∨
          ∃ passed : ℕ, (1 ≤ passed ∧ passed ≤ 4) ∧ s'.i = s.i + passed ∧
            s'.pixelPtr = s.pixelPtr + passed ∧
            ∀ k < passed, ¬ img.SegmentTest (x + k) y threshold.toNat := by
  refine ⟨_, _, thresholdMasks_eq img threshold hx hw hrow, fun k hk h => ?_, ?_⟩
  · rcases h with h | h
    · exact Raster.not_segmentTest_of_firstMasks hk h
    · exact Raster.not_segmentTest_of_secondMasks hk h
  · rintro c s s' himage hwidth rfl hptr h
    cases hback : img.groupBack c.threshold x y with
    | some back => exact Or.inr (scanGroup_passes himage hwidth hptr hx hw hrow hback h)
    | none => exact Or.inl (groupBack_eq_none hback)

/-- An image of ten columns and seven rows with one bright pixel. -/
def brightLane : Raster :=
  ⟨10, 7, fun x y => if x = 6 ∧ y = 3 then 200 else 50⟩

def brightLaneContext : RowContext :=
  ⟨brightLane.data, 10, 10, .blank 24, 0, 1⟩

/-- The scan of row 3 before its first group. -/
def brightLaneStart : RowScan :=
  ⟨3, 33, .blank 30, .blank 34, 0⟩

/-- The bright pixel is in the last lane of the group at column 3, which moves on over the three
pixels before it. -/
theorem thresholdMasks_reject_brightLane :
    thresholdMasks brightLane.data 10 10 33 = some (0xFF000000, 0xFF0000FF) ∧
      ∃ s', scanGroup brightLaneContext brightLaneStart = some s' ∧ s'.i = 6 ∧
        ∀ k < 3, ¬ brightLane.SegmentTest (3 + (k : ℕ)) 3 10 := by
  have hmasks : thresholdMasks brightLane.data 10 10 33 = some (0xFF000000, 0xFF0000FF) := by
    decide
  have hmoves : (scanGroup brightLaneContext brightLaneStart).map RowScan.i = some 6 := by
    decide
  obtain ⟨s', hgroup, hi⟩ := Option.map_eq_some_iff.mp hmoves
  obtain ⟨first, second, heq, -, hpasses⟩ :=
    thresholdMasks_reject brightLane 10 3 3 (by decide) (by decide) (by decide)
  obtain ⟨rfl, rfl⟩ := Prod.mk.inj (Option.some.inj (heq.symm.trans hmasks))
  refine ⟨hmasks, s', hgroup, hi, fun k hk => ?_⟩
  obtain hnone | ⟨passed, -, hstep, -, hfail⟩ :=
    hpasses brightLaneContext brightLaneStart s' rfl rfl rfl rfl hgroup
  · exact absurd hnone.1 (by decide)
  · have hstart : brightLaneStart.i = 3 := rfl
    exact hfail k (by omega)

end VioFrontend
