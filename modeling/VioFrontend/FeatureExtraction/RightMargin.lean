import VioFrontend.FeatureExtraction.LeftOver

/-!
# The right margin

The loop over groups ends at column `width - 7` or up to three columns behind it, and what is left
of the row is not examined pixel by pixel. Column `width - 4` is never examined; whether the columns
before it are depends on where the groups fall, and so on the pixels to their left.
-/

namespace VioFrontend

namespace Raster

/-- One of the last four columns whose circles lie inside the image, above the last scanned row. -/
def InRightMargin (img : Raster) (x y : ℕ) : Prop :=
  (3 ≤ x ∧ img.width ≤ x + 7 ∧ x + 4 ≤ img.width) ∧ (3 ≤ y ∧ y + 5 ≤ img.height)

/-- The scan of row `y` gets past column `x`. -/
def Examines (img : Raster) (threshold : UInt8) (x y : ℕ) : Prop :=
  3 ≤ x ∧ x < img.rowEnd threshold y

instance (img : Raster) (threshold : UInt8) (x y : ℕ) : Decidable (img.Examines threshold x y) :=
  inferInstanceAs (Decidable (_ ∧ _))

/-- The pixel has a greater score than all left-over scores at its neighbours. -/
def BeatsLeftOver (img : Raster) (threshold : UInt8) (x y : ℕ) : Prop :=
  ∀ n ∈ neighbours y x, ∀ v, LeftOver img threshold n.2 v n.1 → v < img.score threshold x y

variable {img : Raster} {threshold : UInt8}

/-- The group index with which the scan of a row ends is behind the columns that it examines. -/
lemma examines_iff_scanRow {c : RowContext} {s : RowScan} {y : ℕ} (hfits : c.Fits img y s)
    (hi : s.i = 3) (hptr : s.pixelPtr = y * img.width + 3) (hcorners : s.corners = 0) :
    ∃ s', scanRow c img.width s = some s' ∧
      ∀ x : ℕ, img.Examines c.threshold x y ↔ (3 ≤ x ∧ (x : ℤ) < s'.i) := by
  obtain ⟨s', hs', hend, -⟩ := scanRow_spec img.width (x := 3) hfits hi hptr le_rfl (by omega)
    (by omega)
  refine ⟨s', hs', fun x => ?_⟩
  rw [Examines, hend, Nat.cast_lt]
  rfl

lemma scannedScore_le_score {c r : ℕ} :
    img.scannedScore threshold r c ≤ img.score threshold c r := by
  rw [scannedScore, score]
  split_ifs with hc hin hin
  · exact le_rfl
  · have hb := rowCorners_bound hc
    omega
  · exact (img.cornerScore_bound threshold c r).1
  · exact le_rfl

/-- A local maximum beats what the ring holds when it beats the left-over scores. -/
lemma beatsNeighbours_iff_beatsLeftOver {x y : ℕ} (hx : 3 ≤ x) (hy : 3 ≤ y ∧ y + 5 ≤ img.height)
    (hend : x < img.rowEnd threshold y) (hmax : img.IsLocalMaximum threshold x y) :
    img.BeatsNeighbours threshold y x ↔ img.BeatsLeftOver threshold x y := by
  have hcorner : x ∈ img.rowCorners threshold y :=
    (mem_rowCorners_iff hx (by omega)).mpr ⟨hend, hmax.1⟩
  have hself : ((img.heldScore threshold y x).toNat : ℤ) = img.score threshold x y := by
    obtain ⟨hxw, -⟩ := rowCorners_bound hcorner
    rw [toNat_heldScore_of_mem hcorner, score, if_pos (by omega)]
  have hlower := (forall_neighbours_iff (P := fun x' y' => img.score threshold x' y'
    < img.score threshold x y) (by omega) (by omega)).mpr hmax.2
  refine forall₂_congr fun n hn => ?_
  obtain ⟨⟨-, hrow⟩, -⟩ := (mem_neighbours (by omega) (by omega)).mp hn
  rw [UInt8.lt_iff_toNat_lt, ← Nat.cast_lt (α := ℤ), hself]
  constructor
  · intro h v hv
    rwa [hv.toNat_heldScore] at h
  · intro h
    by_cases hleft : ∃ v, LeftOver img threshold n.2 v n.1
    · obtain ⟨v, hv⟩ := hleft
      rw [hv.toNat_heldScore]
      exact h v hv
    · rw [toNat_heldScore_of_not_leftOver (by omega) (not_exists.mp hleft)]
      exact scannedScore_le_score.trans_lt (hlower n hn)

lemma mem_reported_rightMargin_iff {x y : ℕ} (hin : img.InRightMargin x y)
    (hmax : img.IsLocalMaximum threshold x y) :
    keyPoint x y ∈ img.reported threshold ↔
      img.Examines threshold x y ∧ img.BeatsLeftOver threshold x y := by
  obtain ⟨⟨hx, -⟩, hy⟩ := hin
  rw [keyPoint_mem_reported, mem_rowCorners_iff hx (by omega)]
  constructor
  · rintro ⟨⟨hend, -⟩, hbeats⟩
    exact ⟨⟨hx, hend⟩, (beatsNeighbours_iff_beatsLeftOver hx hy hend hmax).mp hbeats⟩
  · rintro ⟨⟨-, hend⟩, hbeats⟩
    exact ⟨⟨hend, hmax.1⟩, (beatsNeighbours_iff_beatsLeftOver hx hy hend hmax).mpr hbeats⟩

end Raster

/-! ### Completeness of the right margin -/

/-- Every call with enough space reports the local maxima in the right margin. -/
def RightMarginComplete (img : Raster) (threshold : UInt8) : Prop :=
  ∀ outKeypoints capacity out,
    extractFeatures img.data img.width img.height threshold outKeypoints capacity = some out →
      out.outOfSpace = false → ∀ x y, img.InRightMargin x y → img.IsLocalMaximum threshold x y →
        out.Reports x y

/-- A local maximum in the right margin of both images is examined in both or in neither, when the
images differ only to its left. -/
def IndependentOfLeft (img img' : Raster) (threshold : UInt8) : Prop :=
  ∀ x y, img.InRightMargin x y → img.IsLocalMaximum threshold x y →
    img'.IsLocalMaximum threshold x y →
    (∀ x' y' : ℤ, x ≤ x' → img.Contains x' y' → img.pixel x' y' = img'.pixel x' y') →
      (img.Examines threshold x y ↔ img'.Examines threshold x y)

/-- Every local maximum in the right margin is examined, and beats the left-over scores. -/
def RightMarginReached (img : Raster) (threshold : UInt8) : Prop :=
  ∀ x y, img.InRightMargin x y → img.IsLocalMaximum threshold x y →
    img.Examines threshold x y ∧ img.BeatsLeftOver threshold x y

lemma rightMarginComplete_iff_reached {img : Raster} {threshold : UInt8}
    (hw : img.width ≤ 32768) :
    RightMarginComplete img threshold ↔ RightMarginReached img threshold := by
  constructor
  · intro h x y hin hmax
    obtain ⟨out, hout, hcapacity, hreports⟩ :=
      exists_extractFeatures img threshold hw (fun _ => ⟨0, true⟩) (img.width * img.height)
    have hspace := hcapacity le_rfl
    rw [← Raster.mem_reported_rightMargin_iff hin hmax, ← hreports hspace]
    exact h _ _ out hout hspace x y hin hmax
  · intro h outKeypoints capacity out hout hspace x y hin hmax
    obtain ⟨out', hout', -, hreports⟩ :=
      exists_extractFeatures img threshold hw outKeypoints capacity
    obtain rfl : out' = out := Option.some.inj (hout'.symm.trans hout)
    rw [hreports hspace, Raster.mem_reported_rightMargin_iff hin hmax]
    exact h x y hin hmax

/-- The right margins of two images are complete, and examined independently of what is to the
left, exactly when the scans of both get past all local maxima there and no left-over score is in
the way of one. -/
theorem rightMarginComplete_iff (img img' : Raster) (threshold : UInt8) (hw : img.width ≤ 32768)
    (hw' : img'.width ≤ 32768) (hwidth : img'.width = img.width)
    (hheight : img'.height = img.height) :
    (RightMarginComplete img threshold ∧ RightMarginComplete img' threshold ∧
        IndependentOfLeft img img' threshold) ↔
      RightMarginReached img threshold ∧ RightMarginReached img' threshold := by
  rw [rightMarginComplete_iff_reached hw, rightMarginComplete_iff_reached hw']
  constructor
  · rintro ⟨h, h', -⟩
    exact ⟨h, h'⟩
  · rintro ⟨h, h'⟩
    refine ⟨h, h', fun x y hin hmax hmax' _ => iff_of_true (h x y hin hmax).1 ?_⟩
    have hin' : img'.InRightMargin x y := by
      rw [Raster.InRightMargin, hwidth, hheight]
      exact hin
    exact (h' x y hin' hmax').1

/-- A pixel in the last lane of the last group and one on the circle of its first lane, which makes
the group evaluate its pixels; the pixel `(4, 5)` to the left has grey level `v`. -/
def dimDots (v : UInt8) : Raster :=
  ⟨15, 12, fun x y => if (x = 10 ∧ y = 5) ∨ (x = 7 ∧ y = 8) then 24
    else if x = 4 ∧ y = 5 then v else 0⟩

/-- The only corner in the right margin is examined, and no corner of row 3 is left over. -/
lemma rightMarginReached_dimDots {v : UInt8} (h3 : (dimDots v).rowCorners 10 3 = [])
    (hexamined : (dimDots v).Examines 10 10 5)
    (hscores : ∀ x ∈ List.range' 8 4, ∀ y ∈ List.range' 3 5,
      (dimDots v).score 10 x y = 0 ∨ (x = 10 ∧ y = 5)) :
    RightMarginReached (dimDots v) 10 := by
  rintro x y ⟨⟨-, hleft, hright⟩, htop, hbottom⟩ hmax
  simp only [dimDots] at hleft hright hbottom
  rcases hscores x (by simp; omega) y (by simp; omega) with hzero | ⟨rfl, rfl⟩
  · exact absurd hmax.1 (by rw [hzero]; exact lt_irrefl 0)
  · refine ⟨hexamined, fun n hn v' hv' => absurd hv' ?_⟩
    have hrow := (mem_neighbours (by decide) (by decide)).mp hn
    exact Raster.not_leftOver_of_rowCorners_three h3 (by omega)

/-- The local maximum `(10, 5)` of two images that differ in the pixel `(4, 5)`: every call with
enough space reports it, and it is examined in both. -/
theorem rightMarginComplete_iff_dimDots :
    (RightMarginComplete (dimDots 0) 10 ∧ RightMarginComplete (dimDots 24) 10 ∧
        IndependentOfLeft (dimDots 0) (dimDots 24) 10) ∧
      (dimDots 0).IsLocalMaximum 10 (10 : ℕ) (5 : ℕ) ∧ (dimDots 0).InRightMargin 10 5 := by
  have hiff := rightMarginComplete_iff (dimDots 0) (dimDots 24) 10 (by decide) (by decide) rfl rfl
  refine ⟨hiff.mpr ⟨rightMarginReached_dimDots ?_ ?_ ?_, rightMarginReached_dimDots ?_ ?_ ?_⟩,
    ?_, ?_⟩
  · decide +kernel
  · decide +kernel
  · decide +kernel
  · decide +kernel
  · decide +kernel
  · decide +kernel
  · rw [isLocalMaximum_iff_neighbours (by decide) (by decide)]
    exact ⟨by decide +kernel, by decide +kernel⟩
  · exact ⟨by decide, by decide⟩

/-- A bright pixel in the last lane of the last group, which steps back before it. -/
def marginDot : Raster := ⟨15, 12, fun x y => if x = 10 ∧ y = 5 then 255 else 100⟩

/-- A second bright pixel on the circle of the first lane makes the group evaluate its pixels. -/
def marginDots : Raster :=
  ⟨15, 12, fun x y => if (x = 10 ∧ y = 5) ∨ (x = 7 ∧ y = 8) then 255 else 100⟩

lemma isLocalMaximum_marginDot : marginDot.IsLocalMaximum 10 (10 : ℕ) (5 : ℕ) := by
  rw [isLocalMaximum_iff_neighbours (by decide) (by decide)]
  exact ⟨by decide +kernel, by decide +kernel⟩

lemma isLocalMaximum_marginDots : marginDots.IsLocalMaximum 10 (10 : ℕ) (5 : ℕ) := by
  rw [isLocalMaximum_iff_neighbours (by decide) (by decide)]
  exact ⟨by decide +kernel, by decide +kernel⟩

/-- The pixel `(10, 5)` is a local maximum of both images, which differ to its left, and it is
examined in one of them only. -/
theorem not_rightMarginComplete_marginDot :
    ¬ RightMarginComplete marginDot 10 ∧ ¬ IndependentOfLeft marginDot marginDots 10 := by
  have hin : marginDot.InRightMargin 10 5 := by
    refine ⟨?_, ?_⟩ <;> decide
  have hmissed : ¬ marginDot.Examines 10 10 5 := by decide +kernel
  have hexamined : marginDots.Examines 10 10 5 := by decide +kernel
  constructor
  · intro h
    rw [rightMarginComplete_iff_reached (by decide)] at h
    exact hmissed (h 10 5 hin isLocalMaximum_marginDot).1
  · intro h
    have hiff := h 10 5 hin isLocalMaximum_marginDot isLocalMaximum_marginDots
      fun x' y' hx' _ => by
        have hne : x' ≠ 7 := by omega
        simp [marginDot, marginDots, hne]
    exact hmissed (hiff.mpr hexamined)

end VioFrontend
