import VioFrontend.FeatureExtraction.Output
import VioFrontend.Image.Brightness

/-!
# Features of a brighter image

The segment test and the score depend on differences of intensities only. The packed tests add to
and subtract from the centre and saturate there, so a point at an end of the range of a byte can
pass in one of two images that differ by an offset. When no pixel lies at an end of the range
(`Between 1 254`), a lane passes for both, the row scans stop at the same columns, and the same
keypoints are reported.
-/

namespace VioFrontend

open PackedBytes

/-! ### The packed tests -/

/-- No lane lies at an end of the range of a byte. -/
def Unclipped (w : BitVec 32) : Prop :=
  ∀ k < 4, 0 < (lane w k).toNat ∧ (lane w k).toNat < 255

/-- The masks of a test whose lanes are compared without saturation. -/
def plainMasks (threshold : UInt8) (pixels first second : BitVec 32) : Masks where
  plus := pack fun k =>
    if (lane pixels k).toNat + threshold.toNat ≤ (lane first k).toNat ∨
      (lane pixels k).toNat + threshold.toNat ≤ (lane second k).toNat then 255 else 0
  minus := pack fun k =>
    if (lane first k).toNat + threshold.toNat ≤ (lane pixels k).toNat ∨
      (lane second k).toNat + threshold.toNat ≤ (lane pixels k).toNat then 255 else 0

section

variable {threshold : UInt8} {pixels first second : BitVec 32}

/-- Two comparisons that select the lanes of either. -/
lemma lane_or_sel {a b c d : BitVec 32} {k : ℕ} (hk : k < 4) :
    lane (sel (usub8 a b) 0xFFFFFFFF 0x0 ||| sel (usub8 c d) 0xFFFFFFFF 0x0) k
      = if (lane b k).toNat ≤ (lane a k).toNat ∨ (lane d k).toNat ≤ (lane c k).toNat then 255
        else 0 := by
  rw [lane_or, lane_sel _ _ _ hk, lane_sel _ _ _ hk, lane_allOnes hk, lane_zero]
  simp only [usub8, decide_eq_true_eq, UInt8.le_iff_toNat_le]
  by_cases hab : (lane b k).toNat ≤ (lane a k).toNat <;>
    by_cases hcd : (lane d k).toNat ≤ (lane c k).toNat <;> simp [hab, hcd]

/-- The saturated sums never reach an unclipped point, and the sums that are not saturated are
plain. -/
lemma plus_eq {old : BitVec 32} (hfirst : Unclipped first) (hsecond : Unclipped second)
    (hold : ¬ uqadd8 pixels (thresholdPacked threshold) < 0xFFFFFFFF → old = 0x0) :
    (if uqadd8 pixels (thresholdPacked threshold) < 0xFFFFFFFF then
      sel (usub8 first (uqadd8 pixels (thresholdPacked threshold))) 0xFFFFFFFF 0x0 |||
        sel (usub8 second (uqadd8 pixels (thresholdPacked threshold))) 0xFFFFFFFF 0x0
    else old) = (plainMasks threshold pixels first second).plus := by
  refine ext_lane fun k hk => ?_
  obtain ⟨-, hf⟩ := hfirst k hk
  obtain ⟨-, hs⟩ := hsecond k hk
  have hsum := lane_uqadd8 pixels (thresholdPacked threshold) hk
  rw [lane_thresholdPacked threshold hk] at hsum
  rw [plainMasks, lane_pack _ hk]
  split_ifs with hlt hpass hpass
  · rw [lane_or_sel hk, if_pos (by omega)]
  · rw [lane_or_sel hk, if_neg (by omega)]
  · rw [lane_eq_of_not_lt hlt hk] at hsum
    simp at hsum
    omega
  · rw [hold hlt, lane_zero]

/-- The same for the differences. -/
lemma minus_eq {old : BitVec 32} (hfirst : Unclipped first) (hsecond : Unclipped second)
    (hold : ¬ uqsub8 pixels (thresholdPacked threshold) > 0x0 → old = 0x0) :
    (if uqsub8 pixels (thresholdPacked threshold) > 0x0 then
      sel (usub8 (uqsub8 pixels (thresholdPacked threshold)) first) 0xFFFFFFFF 0x0 |||
        sel (usub8 (uqsub8 pixels (thresholdPacked threshold)) second) 0xFFFFFFFF 0x0
    else old) = (plainMasks threshold pixels first second).minus := by
  refine ext_lane fun k hk => ?_
  obtain ⟨hf, -⟩ := hfirst k hk
  obtain ⟨hs, -⟩ := hsecond k hk
  have hdifference := lane_uqsub8 pixels (thresholdPacked threshold) hk
  rw [lane_thresholdPacked threshold hk] at hdifference
  rw [plainMasks, lane_pack _ hk]
  split_ifs with hlt hpass hpass
  · rw [lane_or_sel hk, if_pos (by omega)]
  · rw [lane_or_sel hk, if_neg (by omega)]
  · rw [lane_eq_of_not_pos hlt] at hdifference
    simp at hdifference
    omega
  · rw [hold hlt, lane_zero]

/-- A test on unclipped points, with old masks that are 0 where a half is skipped. -/
lemma diagonalTest_eq {old : Masks} (hfirst : Unclipped first) (hsecond : Unclipped second)
    (hplus : ¬ uqadd8 pixels (thresholdPacked threshold) < 0xFFFFFFFF → old.plus = 0x0)
    (hminus : ¬ uqsub8 pixels (thresholdPacked threshold) > 0x0 → old.minus = 0x0) :
    diagonalTest (uqadd8 pixels (thresholdPacked threshold))
        (uqsub8 pixels (thresholdPacked threshold)) first second old
      = plainMasks threshold pixels first second := by
  rw [diagonalTest, plus_eq hfirst hsecond hplus, minus_eq hfirst hsecond hminus]

/-- Where a half is skipped, no unclipped point passes it. -/
lemma plainMasks_plus_of_skipped (hfirst : Unclipped first) (hsecond : Unclipped second)
    (h : ¬ uqadd8 pixels (thresholdPacked threshold) < 0xFFFFFFFF) :
    (plainMasks threshold pixels first second).plus = 0x0 := by
  have hplus := plus_eq hfirst hsecond fun _ : ¬ uqadd8 pixels (thresholdPacked threshold)
    < 0xFFFFFFFF => (rfl : (0x0 : BitVec 32) = 0x0)
  rw [← hplus, if_neg h]

lemma plainMasks_minus_of_skipped (hfirst : Unclipped first) (hsecond : Unclipped second)
    (h : ¬ uqsub8 pixels (thresholdPacked threshold) > 0x0) :
    (plainMasks threshold pixels first second).minus = 0x0 := by
  have hminus := minus_eq hfirst hsecond fun _ : ¬ uqsub8 pixels (thresholdPacked threshold)
    > 0x0 => (rfl : (0x0 : BitVec 32) = 0x0)
  rw [← hminus, if_neg h]

end

/-! ### The scan of a row -/

namespace Raster

variable {img img' : Raster} {threshold : UInt8} {x y : ℤ} {c : ℕ}

/-- The four pixels from `(x, y)` and their circles lie inside the image. -/
def GroupInside (img : Raster) (x y : ℤ) : Prop :=
  (3 ≤ x ∧ x + 6 < img.width) ∧ (3 ≤ y ∧ y + 3 < img.height)

lemma GroupInside.circle (h : img.GroupInside x y) {k : ℕ} (hk : k < 4) (j : ℕ) :
    img.Contains (x + k + (circleOffset j).1) (y + (circleOffset j).2) := by
  have hb := circleOffset_bound j
  simp only [GroupInside, Contains] at h ⊢
  omega

lemma GroupInside.centre (h : img.GroupInside x y) {k : ℕ} (hk : k < 4) :
    img.Contains (x + k) y := by
  simp only [GroupInside, Contains] at h ⊢
  omega

/-- The points of a group are unclipped when the pixels of the image are. -/
lemma unclipped_circleWord (h : img.Between 1 254) (hin : img.GroupInside x y) (j : ℕ) :
    Unclipped (img.circleWord x y j) := by
  intro k hk
  rw [lane_circleWord _ _ _ _ hk]
  have hpixel := h _ _ (hin.circle hk j)
  exact ⟨hpixel.1, Nat.lt_succ_of_le hpixel.2⟩

lemma firstMasks_eq (h : img.Between 1 254) (hin : img.GroupInside x y) :
    img.firstMasks threshold x y
      = plainMasks threshold (img.word x y) (img.circleWord x y 8) (img.circleWord x y 0) :=
  diagonalTest_eq (unclipped_circleWord h hin 8) (unclipped_circleWord h hin 0) (fun _ => rfl)
    fun _ => rfl

lemma secondMasks_eq (h : img.Between 1 254) (hin : img.GroupInside x y) :
    img.secondMasks threshold x y
      = plainMasks threshold (img.word x y) (img.circleWord x y 4) (img.circleWord x y 12) := by
  have hpoint := unclipped_circleWord h hin
  rw [secondMasks, firstMasks_eq h hin]
  exact diagonalTest_eq (hpoint 4) (hpoint 12) (plainMasks_plus_of_skipped (hpoint 8) (hpoint 0))
    (plainMasks_minus_of_skipped (hpoint 8) (hpoint 0))

section

variable (hbright : img.BrighterBy c img')

include hbright

lemma BrighterBy.groupInside (hin : img.GroupInside x y) : img'.GroupInside x y := by
  rw [GroupInside, hbright.width, hbright.height]
  exact hin

/-- The comparisons without saturation are those of the brighter image. -/
lemma BrighterBy.plainMasks (hin : img.GroupInside x y) (i j : ℕ) :
    plainMasks threshold (img'.word x y) (img'.circleWord x y i) (img'.circleWord x y j)
      = plainMasks threshold (img.word x y) (img.circleWord x y i) (img.circleWord x y j) := by
  have hcentre : ∀ k < 4,
      (lane (img'.word x y) k).toNat = (lane (img.word x y) k).toNat + c := fun k hk => by
    rw [lane_word _ _ _ hk, lane_word _ _ _ hk, hbright.pixel _ _ (hin.centre hk)]
  have hpoint : ∀ k < 4, ∀ j, (lane (img'.circleWord x y j) k).toNat
      = (lane (img.circleWord x y j) k).toNat + c := fun k hk j => by
    rw [lane_circleWord _ _ _ _ hk, lane_circleWord _ _ _ _ hk, circle, circle,
      hbright.pixel _ _ (hin.circle hk j)]
  rw [VioFrontend.plainMasks, VioFrontend.plainMasks, Masks.mk.injEq]
  constructor <;> refine ext_lane fun k hk => ?_ <;>
    · rw [lane_pack _ hk, lane_pack _ hk, hcentre k hk, hpoint k hk, hpoint k hk]
      refine if_congr (or_congr ?_ ?_) rfl rfl <;> omega

variable (h : img.Between 1 254) (h' : img'.Between 1 254)

include h h'

/-- A group steps back by the same number of pixels. -/
lemma BrighterBy.groupBack (hin : img.GroupInside x y) :
    img'.groupBack threshold x y = img.groupBack threshold x y := by
  have hin' := hbright.groupInside hin
  rw [Raster.groupBack, Raster.groupBack, firstMasks_eq h' hin', secondMasks_eq h' hin',
    firstMasks_eq h hin, secondMasks_eq h hin, hbright.plainMasks hin, hbright.plainMasks hin]

/-- From the first column on, every group lies inside the image, so both scans take the same
groups. -/
lemma BrighterBy.scan (hy : 3 ≤ y ∧ y + 3 < img.height) (fuel : ℕ) {x : ℕ} (hx : 3 ≤ x) :
    img'.scanEnd threshold y fuel x = img.scanEnd threshold y fuel x ∧
      img'.scanCleared threshold y fuel x = img.scanCleared threshold y fuel x := by
  induction fuel generalizing x with
  | zero => exact ⟨rfl, rfl⟩
  | succ fuel ih =>
    simp only [scanEnd, scanCleared, hbright.width]
    split_ifs with hw
    · have hin : img.GroupInside x y := ⟨by omega, hy⟩
      have hnext : img'.nextGroup threshold y x = img.nextGroup threshold y x := by
        rw [nextGroup, nextGroup, hbright.groupBack h h' hin]
      have hstep := (img.nextGroup_bound threshold y x).1
      obtain ⟨hend, hcleared⟩ := ih (x := img.nextGroup threshold y x) (by omega)
      rw [hnext, hend, hcleared]
      exact ⟨rfl, rfl⟩
    · exact ⟨rfl, rfl⟩

lemma BrighterBy.rowEnd (hy : 3 ≤ y ∧ y + 3 < img.height) :
    img'.rowEnd threshold y = img.rowEnd threshold y := by
  rw [Raster.rowEnd, Raster.rowEnd, hbright.width]
  exact (hbright.scan h h' hy _ le_rfl).1

lemma BrighterBy.rowCleared (hy : 3 ≤ y ∧ y + 3 < img.height) :
    img'.rowCleared threshold y = img.rowCleared threshold y := by
  rw [Raster.rowCleared, Raster.rowCleared, hbright.width]
  exact (hbright.scan h h' hy _ le_rfl).2

omit h h' in
/-- The offset cancels in the differences to the centre. -/
lemma BrighterBy.cornerScore (hin : img.CircleInside x y) :
    img'.cornerScore threshold x y = img.cornerScore threshold x y := by
  have hcontrast : img'.contrast x y = img.contrast x y := by
    funext k
    have hb := circleOffset_bound k
    have hcentre : img.Contains x y := by
      simp only [CircleInside, Contains] at hin ⊢
      omega
    have hpoint : img.Contains (x + (circleOffset k).1) (y + (circleOffset k).2) := by
      simp only [CircleInside, Contains] at hin ⊢
      omega
    rw [contrast, contrast, circle, circle, hbright.pixel _ _ hcentre, hbright.pixel _ _ hpoint]
    push_cast
    ring
  rw [Raster.cornerScore, Raster.cornerScore, hcontrast]

/-! ### The reported keypoints -/

omit h h' in
/-- The columns before the one where a scan ends have their circles inside the image. -/
lemma BrighterBy.cornerScore_of_lt {y k : ℕ} (hy : 3 ≤ y ∧ y + 3 < img.height) (hk : 3 ≤ k)
    (hend : k < img.rowEnd threshold y) :
    img'.cornerScore threshold k y = img.cornerScore threshold k y := by
  have hb := img.rowEnd_bound threshold y
  exact hbright.cornerScore ⟨by omega, by omega⟩

lemma BrighterBy.heldScore (y k : ℕ) :
    img'.heldScore threshold y k = img.heldScore threshold y k := by
  induction y using Nat.strong_induction_on with
  | _ y ih =>
    match y with
    | 0 | 1 | 2 => rfl
    | r + 3 =>
      rw [Raster.heldScore, Raster.heldScore, hbright.height, ih r (by omega)]
      by_cases hrow : r + 3 + 3 < img.height
      · have hy : 3 ≤ ((r + 3 : ℕ) : ℤ) ∧ ((r + 3 : ℕ) : ℤ) + 3 < img.height := by omega
        rw [if_pos hrow, if_pos hrow, hbright.rowEnd h h' hy, hbright.rowCleared h h' hy]
        split_ifs with hscanned
        · rw [hbright.cornerScore_of_lt (by omega) hscanned.1 hscanned.2]
        · rfl
        · rfl
      · rw [if_neg hrow, if_neg hrow]

lemma BrighterBy.rowCorners (y : ℕ) : img'.rowCorners threshold y = img.rowCorners threshold y := by
  rw [Raster.rowCorners, Raster.rowCorners, hbright.height]
  split_ifs with hy
  · rw [hbright.rowEnd h h' (by omega), cornersBetween, cornersBetween]
    refine List.filter_congr fun k hk => ?_
    obtain ⟨hk3, hend⟩ := List.mem_range'_1.mp hk
    rw [hbright.cornerScore_of_lt hy hk3 (by omega)]
  · rfl

lemma BrighterBy.reported : img'.reported threshold = img.reported threshold := by
  have hbeats : ∀ y k, img'.BeatsNeighbours threshold y k ↔ img.BeatsNeighbours threshold y k := by
    intro y k
    simp only [BeatsNeighbours, hbright.heldScore h h']
  have hrow : img'.reportedPoints threshold = img.reportedPoints threshold := by
    funext y
    simp only [reportedPoints, reportedRow, hbright.rowCorners h h', hbeats]
  rw [Raster.reported, Raster.reported, hbright.height, hrow]

end

end Raster

/-- The same offset on all pixels changes nothing in the output, margins included, as long as no
pixel of either image lies at an end of the range of a byte. -/
theorem extractFeatures_brighter (img : Raster) (threshold : UInt8) (c hi : ℕ)
    (hw : img.width ≤ 32768) (h : img.Between 1 hi) (hc : hi + c ≤ 254)
    (outKeypoints : ℕ → KeyPoint) (capacity : ℕ) :
    extractFeatures (img.brighter c).data (img.brighter c).width (img.brighter c).height threshold
        outKeypoints capacity
      = extractFeatures img.data img.width img.height threshold outKeypoints capacity := by
  have hbright : img.BrighterBy c (img.brighter c) := Raster.brighterBy_brighter h (by omega)
  have hunclipped : img.Between 1 254 := h.mono le_rfl (by omega)
  have hunclipped' : (img.brighter c).Between 1 254 :=
    (hbright.between h).mono (by omega) hc
  have hw' : (img.brighter c).width ≤ 32768 := hw
  rw [extractFeatures_spec hw, extractFeatures_spec hw', hbright.reported hunclipped hunclipped']

/-- A bright dot on a grey ground. -/
def greyDot : Raster := ⟨40, 40, fun x y => if x = 20 ∧ y = 20 then 150 else 20⟩

lemma greyDot_between : greyDot.Between 4 150 := by
  intro x y _
  simp only [greyDot]
  split_ifs <;> decide

theorem extractFeatures_brighter_greyDot :
    extractFeatures (greyDot.brighter 100).data (greyDot.brighter 100).width
        (greyDot.brighter 100).height 10 noKeypoints 4
      = extractFeatures greyDot.data greyDot.width greyDot.height 10 noKeypoints 4 :=
  extractFeatures_brighter greyDot 10 100 150 (by decide) (greyDot_between.mono (by decide) le_rfl)
    (by decide) noKeypoints 4

end VioFrontend
