import VioFrontend.FeatureExtraction.Scan

/-!
# Non-maximum suppression over the ring of rows

Three score rows are kept, and row `y` uses slot `(y - 3) % 3`. `Raster.heldScore` is what the
slot of a row holds once that row has been scanned; below the columns that a scan clears it is
what an earlier row has left there. The suppression of row `y` compares exactly these values of
the rows `y - 1`, `y`, `y + 1`, so the output of `extractFeatures` is a function of the image
(`extractFeatures_spec`): the points `Raster.reported`, as many as there is space for.
-/

namespace VioFrontend

open Checked

namespace Raster

/-- The score that the ring slot of a row holds in a column after the scan of that row. -/
def heldScore (img : Raster) (threshold : UInt8) : ℕ → ℕ → UInt8
  | y + 3, c =>
    if y + 3 + 3 < img.height then
      if 3 ≤ c ∧ c < img.rowEnd threshold (y + 3 : ℕ) then
        UInt8.ofInt (img.cornerScore threshold c (y + 3 : ℕ))
      else if 3 ≤ c ∧ c < img.rowCleared threshold (y + 3 : ℕ) then 0
      else img.heldScore threshold y c
    else img.heldScore threshold y c
  | _, _ => 0

/-- The columns that the scan of row `y` records as corners. -/
def rowCorners (img : Raster) (threshold : UInt8) (y : ℕ) : List ℕ :=
  if 3 ≤ y ∧ y + 3 < img.height then img.cornersBetween threshold y 3 (img.rowEnd threshold y)
  else []

/-- The held score at `(c, y)` is greater than those of its 8 neighbours. -/
def BeatsNeighbours (img : Raster) (threshold : UInt8) (y c : ℕ) : Prop :=
  ∀ n ∈ [(y, c + 1), (y, c - 1), (y - 1, c - 1), (y - 1, c), (y - 1, c + 1),
    (y + 1, c - 1), (y + 1, c), (y + 1, c + 1)],
    img.heldScore threshold n.1 n.2 < img.heldScore threshold y c

instance (img : Raster) (threshold : UInt8) (y c : ℕ) :
    Decidable (img.BeatsNeighbours threshold y c) :=
  inferInstanceAs (Decidable (∀ n ∈ _, _))

/-- The columns of row `y` that are reported. -/
def reportedRow (img : Raster) (threshold : UInt8) (y : ℕ) : List ℕ :=
  (img.rowCorners threshold y).filter fun c => img.BeatsNeighbours threshold y c

/-- The keypoint of column `c` in row `y`. -/
def keyPoint (c y : ℕ) : KeyPoint := ⟨⟨c, y⟩, false⟩

/-- The keypoints of row `y` that are reported. -/
def reportedPoints (img : Raster) (threshold : UInt8) (y : ℕ) : List KeyPoint :=
  (img.reportedRow threshold y).map (keyPoint · y)

/-- The keypoints that `extractFeatures` reports when it has the space: those of the rows
`3, ..., height - 4`. -/
def reported (img : Raster) (threshold : UInt8) : List KeyPoint :=
  (List.range' 3 (img.height - 6)).flatMap (img.reportedPoints threshold)

end Raster

/-- The neighbours of a pixel, as row and column, in the order in which they are compared. -/
def neighbours (y c : ℕ) : List (ℕ × ℕ) :=
  [(y, c + 1), (y, c - 1), (y - 1, c - 1), (y - 1, c), (y - 1, c + 1),
    (y + 1, c - 1), (y + 1, c), (y + 1, c + 1)]

lemma mem_neighbours {y c : ℕ} (hy : 1 ≤ y) (hc : 1 ≤ c) {n : ℕ × ℕ} :
    n ∈ neighbours y c ↔
      ((-1 ≤ (n.2 : ℤ) - c ∧ (n.2 : ℤ) - c ≤ 1) ∧ (-1 ≤ (n.1 : ℤ) - y ∧ (n.1 : ℤ) - y ≤ 1)) ∧
        ¬ ((n.2 : ℤ) - c = 0 ∧ (n.1 : ℤ) - y = 0) := by
  obtain ⟨r, d⟩ := n
  simp only [neighbours, List.mem_cons, Prod.mk.injEq, List.not_mem_nil, or_false]
  omega

/-! ### Storing keypoints -/

/-- Store one more keypoint, or run out of space. -/
def OutKeypoints.push (maxNumberOfKeypoints : ℕ) (out : OutKeypoints) (kp : KeyPoint) :
    OutKeypoints :=
  if out.outOfSpace then out
  else if out.size = maxNumberOfKeypoints then { out with outOfSpace := true }
  else { out with keypoints := Function.update out.keypoints out.size kp, size := out.size + 1 }

lemma foldl_push_of_outOfSpace {max : ℕ} {out : OutKeypoints} (h : out.outOfSpace = true)
    (kps : List KeyPoint) : kps.foldl (OutKeypoints.push max) out = out := by
  induction kps with
  | nil => rfl
  | cons kp kps ih => simpa [OutKeypoints.push, h] using ih

/-- Pushing a list stores its prefix that fits. -/
lemma foldl_push {max : ℕ} {out : OutKeypoints} (h : out.outOfSpace = false)
    (hsize : out.size ≤ max) (kps : List KeyPoint) :
    kps.foldl (OutKeypoints.push max) out =
      { keypoints := fun i => if i < out.size then out.keypoints i
          else ((kps.take (max - out.size))[i - out.size]?).getD (out.keypoints i)
        size := min max (out.size + kps.length)
        outOfSpace := decide (max < out.size + kps.length) } := by
  induction kps generalizing out with
  | nil =>
    obtain ⟨keypoints, size, outOfSpace⟩ := out
    have hle : ¬ max < size := not_lt.mpr hsize
    simpa [hle, hsize] using h
  | cons kp kps ih =>
    rw [List.foldl_cons, OutKeypoints.push, if_neg (by simp [h])]
    by_cases hfull : out.size = max
    · rw [if_pos hfull, foldl_push_of_outOfSpace rfl]
      simp [hfull]
    · have hnext : out.size + 1 ≤ max := by omega
      rw [if_neg hfull, ih (by exact h) (by exact hnext)]
      have hsucc : max - out.size = max - (out.size + 1) + 1 := by omega
      simp only [OutKeypoints.mk.injEq, List.length_cons]
      refine ⟨funext fun i => ?_, by omega, by congr 1; apply propext; omega⟩
      rw [hsucc, List.take_succ_cons]
      rcases lt_trichotomy i out.size with hi | rfl | hi
      · simp [hi, Nat.lt_succ_of_lt hi, hi.ne]
      · simp
      · have hi' : i - out.size = i - (out.size + 1) + 1 := by omega
        have hlt : ¬ i < out.size + 1 := by omega
        simp [hi', hlt, hi.not_gt, hi.ne']

/-! ### The contents of the ring -/

/-- The slot of row `y` holds its scores. -/
def HoldsScores (img : Raster) (threshold : UInt8) (y : ℕ) (scores : Buffer UInt8) : Prop :=
  ∀ c : ℕ, c < img.width →
    scores.read (rowScoresStart img.width (y % 3) + c) = some (img.heldScore threshold y c)

/-- The slot of row `y` holds its corners, behind their number. -/
def HoldsCorners (img : Raster) (threshold : UInt8) (y : ℕ) (positions : Buffer ℕ) : Prop :=
  positions.read (rowCornerPositionsStart img.width (y % 3) - 1)
      = some (img.rowCorners threshold y).length ∧
    ∀ k : ℕ, k < (img.rowCorners threshold y).length →
      positions.read (rowCornerPositionsStart img.width (y % 3) + k)
        = (img.rowCorners threshold y)[k]?

/-- What the two buffers hold when row `y` was the last one to be scanned. -/
structure RingHolds (img : Raster) (threshold : UInt8) (y : ℕ) (scores : Buffer UInt8)
    (positions : Buffer ℕ) : Prop where
  scores_size : 3 * img.width ≤ scores.size
  positions_size : 3 * (img.width + 1) ≤ positions.size
  scores : ∀ r, r ≤ y → y ≤ r + 2 → HoldsScores img threshold r scores
  corners : 3 ≤ y → HoldsCorners img threshold y positions

variable {img : Raster} {threshold : UInt8}

lemma Raster.rowCorners_bound {y c : ℕ} (hc : c ∈ img.rowCorners threshold y) :
    (3 ≤ c ∧ c + 4 < img.width) ∧ (3 ≤ y ∧ y + 3 < img.height) ∧
      c < img.rowEnd threshold y ∧ img.cornerScore threshold c y ≠ 0 := by
  rw [Raster.rowCorners] at hc
  split_ifs at hc with hy
  · obtain ⟨⟨h3, hend⟩, hscore⟩ := Raster.mem_cornersBetween.mp hc
    have hb := img.rowEnd_bound threshold y
    exact ⟨⟨h3, by omega⟩, hy, hend, hscore⟩
  · simp at hc

lemma Raster.length_rowCorners_le (img : Raster) (threshold : UInt8) (y : ℕ) :
    (img.rowCorners threshold y).length ≤ img.width := by
  rw [Raster.rowCorners]
  split_ifs with hy
  · have hb := img.rowEnd_bound threshold y
    have := img.length_cornersBetween_le threshold y 3 (img.rowEnd threshold y)
    omega
  · simp

/-! ### The suppression of a row -/

/-- The address of a score, given by row and column. -/
def cellAddress (width : ℕ) (n : ℕ × ℕ) : ℤ := rowScoresStart width ((n.1 : ℤ) % 3) + n.2

/-- The comparison of a pixel, over the addresses of its neighbours. -/
lemma isMaximum_eq {w y c : ℕ} (hc : 1 ≤ c) (scores : Buffer UInt8) :
    isMaximum scores (rowScoresStart w ((y + 1 : ℕ) % 3)) (rowScoresStart w (y % 3))
        (rowScoresStart w ((y + 2 : ℕ) % 3)) c
      = (scores.read (cellAddress w (y + 1, c))).bind fun score =>
          ((neighbours (y + 1) c).map (cellAddress w)).foldlM (fun ok n => if ok then
            do return decide (score > (← scores.read n)) else some false) true := by
  have hright : ∀ r : ℕ, rowScoresStart w (r % 3) + c + 1 = cellAddress w (r, c + 1) := by
    intro r
    simp only [cellAddress]
    push_cast
    ring
  have hleft : ∀ r : ℕ, rowScoresStart w (r % 3) + c - 1 = cellAddress w (r, c - 1) := by
    intro r
    simp only [cellAddress, Nat.cast_sub hc]
    push_cast
    ring
  simp only [isMaximum, hright, hleft]
  rfl

/-- The comparison loop over cells that hold known values. -/
lemma foldlM_beats {ι : Type*} {scores : Buffer UInt8} (score : UInt8) {ns : List ι}
    {address : ι → ℤ} {value : ι → UInt8}
    (h : ∀ n ∈ ns, scores.read (address n) = some (value n)) (ok : Bool) :
    (ns.map address).foldlM (fun ok n => if ok then
        do return decide (score > (← scores.read n)) else some false) ok
      = some (ok && ns.all fun n => decide (value n < score)) := by
  induction ns generalizing ok with
  | nil => simp
  | cons n ns ih =>
    have hread := h n List.mem_cons_self
    have ih := ih fun n hn => h n (List.mem_cons_of_mem _ hn)
    cases ok with
    | false => simpa using ih false
    | true => simpa [hread] using ih (decide (value n < score))

lemma isMaximum_spec {y c : ℕ} {scores : Buffer UInt8} (hc : 1 ≤ c) (hcw : c + 1 < img.width)
    (hholds : ∀ r, y ≤ r → r ≤ y + 2 → HoldsScores img threshold r scores) :
    isMaximum scores (rowScoresStart img.width ((y + 1 : ℕ) % 3))
        (rowScoresStart img.width (y % 3)) (rowScoresStart img.width ((y + 2 : ℕ) % 3)) c
      = some (decide (img.BeatsNeighbours threshold (y + 1) c)) := by
  have hread : ∀ n ∈ neighbours (y + 1) c, scores.read (cellAddress img.width n)
      = some (img.heldScore threshold n.1 n.2) := by
    intro n hn
    have hnear := (mem_neighbours (by omega) hc).mp hn
    exact hholds n.1 (by omega) (by omega) n.2 (by omega)
  have hself : scores.read (cellAddress img.width (y + 1, c))
      = some (img.heldScore threshold (y + 1) c) :=
    hholds (y + 1) (by omega) (by omega) c (by omega)
  rw [isMaximum_eq hc, hself, Option.bind_some, foldlM_beats _ hread, Bool.true_and]
  congr 1
  rw [Bool.eq_iff_iff, List.all_eq_true, decide_eq_true_eq]
  exact forall₂_congr fun n _ => decide_eq_true_iff

/-- The loop over the corners of a row stores those that beat their neighbours. -/
lemma suppressRow_spec (max : ℕ) {scores : Buffer UInt8} {positions : Buffer ℕ}
    {previous secondPrevious current start : ℤ} {y : ℕ} {f : ℕ → ℕ} {ks : List ℕ}
    {out : OutKeypoints}
    (hread : ∀ k ∈ ks, positions.read (start + k) = some (f k))
    (hbeats : ∀ k ∈ ks, isMaximum scores previous secondPrevious current (f k)
      = some (decide (img.BeatsNeighbours threshold y (f k))))
    (hout : out.outOfSpace = false) :
    suppressRow scores positions max previous secondPrevious current start (y + 1 : ℕ) ks out
      = some ((((ks.map f).filter fun c => img.BeatsNeighbours threshold y c).map
          (Raster.keyPoint · y)).foldl (OutKeypoints.push max) out) := by
  induction ks generalizing out with
  | nil => rfl
  | cons k ks ih =>
    have hread' : ∀ k ∈ ks, positions.read (start + k) = some (f k) :=
      fun k hk => hread k (List.mem_cons_of_mem _ hk)
    have hbeats' : ∀ k ∈ ks, isMaximum scores previous secondPrevious current (f k)
        = some (decide (img.BeatsNeighbours threshold y (f k))) :=
      fun k hk => hbeats k (List.mem_cons_of_mem _ hk)
    have hrow : ((((y + 1 : ℕ) : ℤ) - 1 : ℤ) : ℚ) = y := by push_cast; ring
    simp only [suppressRow, hread k List.mem_cons_self, hbeats k List.mem_cons_self,
      Option.bind_eq_bind, Option.bind_some, List.map_cons, decide_eq_true_eq, hrow]
    by_cases hb : img.BeatsNeighbours threshold y (f k)
    · have hspace : ¬ out.outOfSpace = true := by simp [hout]
      rw [if_pos hb, List.filter_cons_of_pos (by simpa using hb), List.map_cons, List.foldl_cons,
        OutKeypoints.push, if_neg hspace]
      split_ifs with hfull
      · rw [foldl_push_of_outOfSpace rfl]
        rfl
      · exact ih hread' hbeats' hout
    · rw [if_neg hb, List.filter_cons_of_neg (by simpa using hb)]
      exact ih hread' hbeats' hout

/-! ### One iteration of the loop over rows -/

/-- What the scan of row `y` changes in the two buffers, also when there is nothing to scan. -/
structure RowScanned (img : Raster) (threshold : UInt8) (y : ℕ) (scores scores' : Buffer UInt8)
    (positions positions' : Buffer ℕ) (corners : ℕ) : Prop where
  scores_size : scores'.size = scores.size
  positions_size : positions'.size = positions.size
  held : (∀ c : ℕ, c < img.width → scores.read (rowScoresStart img.width (y % 3) + c)
      = some (img.heldScore threshold (y - 3) c)) → HoldsScores img threshold y scores'
  scores_frame : ∀ k, k < rowScoresStart img.width (y % 3) ∨
    rowScoresStart img.width (y % 3) + img.width ≤ k → scores'.read k = scores.read k
  count : corners = (img.rowCorners threshold y).length
  corners_read : ∀ k : ℕ, k < (img.rowCorners threshold y).length →
    positions'.read (rowCornerPositionsStart img.width (y % 3) + k)
      = (img.rowCorners threshold y)[k]?
  positions_frame : ∀ k, k < rowCornerPositionsStart img.width (y % 3) ∨
    rowCornerPositionsStart img.width (y % 3) + img.width ≤ k →
      positions'.read k = positions.read k

/-- A row that is not scanned keeps its slot and has no corners. -/
lemma rowScanned_flush {y : ℕ} (hy : 3 ≤ y) (hyh : ¬ y + 3 < img.height) (scores : Buffer UInt8)
    (positions : Buffer ℕ) : RowScanned img threshold y scores scores positions positions 0 := by
  have hnil : img.rowCorners threshold y = [] := if_neg fun h => hyh h.2
  obtain ⟨r, rfl⟩ := Nat.exists_eq_add_of_le' hy
  refine ⟨rfl, rfl, fun hold c hc => ?_, fun _ _ => rfl, by simp [hnil], ?_, fun _ _ => rfl⟩
  · rw [hold c hc, Raster.heldScore, if_neg hyh]
    rfl
  · intro k hk
    simp [hnil] at hk

lemma scanRow_row {y : ℕ} {table : Buffer ℕ} {scores : Buffer UInt8} {positions : Buffer ℕ}
    (hw : img.width ≤ 32768) (htable : IsLookupTable threshold.toNat table) (hy : 3 ≤ y)
    (hyh : y + 3 < img.height) (hscores : 3 * img.width ≤ scores.size)
    (hpositions : 3 * (img.width + 1) ≤ positions.size) :
    ∃ s, scanRow ⟨img.data, img.width, threshold, table, rowScoresStart img.width (y % 3),
        rowCornerPositionsStart img.width (y % 3)⟩ img.width
          ⟨3, y * img.width + 3, scores, positions, 0⟩ = some s ∧
      RowScanned img threshold y scores s.scores positions s.positions s.corners := by
  have hslot : (0 : ℤ) ≤ (y : ℤ) % 3 ∧ (y : ℤ) % 3 ≤ 2 := by omega
  have hslot_scores : (y : ℤ) % 3 * img.width ≤ 2 * img.width :=
    Int.mul_le_mul_of_nonneg_right hslot.2 (by omega)
  have hslot_positions : (y : ℤ) % 3 * (img.width + 1) ≤ 2 * (img.width + 1) :=
    Int.mul_le_mul_of_nonneg_right hslot.2 (by omega)
  have hscores_nonneg : 0 ≤ (y : ℤ) % 3 * img.width := Int.mul_nonneg hslot.1 (by omega)
  have hpositions_nonneg : 0 ≤ (y : ℤ) % 3 * (img.width + 1) := Int.mul_nonneg hslot.1 (by omega)
  have hfits : RowContext.Fits ⟨img.data, img.width, threshold, table,
      rowScoresStart img.width (y % 3), rowCornerPositionsStart img.width (y % 3)⟩ img y
      ⟨3, y * img.width + 3, scores, positions, 0⟩ :=
    ⟨rfl, rfl, hw, htable, by omega, hscores_nonneg,
      by simp only [rowScoresStart]; omega, by simp only [rowCornerPositionsStart]; omega,
      by simp only [rowCornerPositionsStart]; omega⟩
  obtain ⟨s, hs, -, hc⟩ := scanRow_spec img.width (x := 3) hfits rfl rfl le_rfl (by omega) (by simp)
  have hb := img.rowEnd_bound threshold y
  have hcorners : img.rowCorners threshold y
      = img.cornersBetween threshold y 3 (img.scanEnd threshold y img.width 3) := if_pos ⟨hy, hyh⟩
  have hlen := img.length_rowCorners_le threshold y
  have hcount := hc.corners
  have hevaluated := hc.evaluated
  have hcleared := hc.cleared
  have hframe := hc.scores_frame
  have hpositions_read := hc.positions
  have hpositions_frame := hc.positions_frame
  simp only [← hcorners, Nat.zero_add] at hcount hevaluated hcleared hframe
  simp only [← hcorners, Nat.zero_add] at hpositions_read hpositions_frame
  refine ⟨s, hs, hc.scores_size, hc.positions_size, fun hold c hcw => ?_, fun k hk => ?_, hcount,
    hpositions_read, fun k hk => hpositions_frame k (by omega)⟩
  · obtain ⟨r, rfl⟩ := Nat.exists_eq_add_of_le' hy
    rw [Raster.heldScore, if_pos hyh]
    split_ifs with h1 h2
    · exact hevaluated c h1.1 h1.2
    · exact hcleared c (by simp only [Raster.rowEnd] at h1; omega) h2.2
    · simp only [Raster.rowCleared, Raster.rowEnd] at h1 h2
      rw [hframe _ (by omega), hold c hcw]
      rfl
  · simp only [Raster.rowCleared] at hb
    by_cases hw3 : img.width < 7
    · rw [hframe k (by omega)]
    · rw [hframe k (by omega)]

lemma examineRow_spec {y : ℕ} {table : Buffer ℕ} {scores : Buffer UInt8} {positions : Buffer ℕ}
    (hw : img.width ≤ 32768) (htable : IsLookupTable threshold.toNat table) (hy : 3 ≤ y)
    (hscores : 3 * img.width ≤ scores.size) (hpositions : 3 * (img.width + 1) ≤ positions.size) :
    ∃ s, examineRow ⟨img.data, img.width, threshold, table, rowScoresStart img.width (y % 3),
        rowCornerPositionsStart img.width (y % 3)⟩ img.height y
          ⟨3, y * img.width + 3, scores, positions, 0⟩ = some s ∧
      RowScanned img threshold y scores s.scores positions s.positions s.corners := by
  rw [examineRow]
  split_ifs with hyh
  · exact scanRow_row hw htable hy (by omega) hscores hpositions
  · exact ⟨_, rfl, rowScanned_flush hy (by omega) _ _⟩

/-- The scan of row `y + 1` and the count written behind it. -/
lemma ringHolds_succ {y : ℕ} {scores scores' : Buffer UInt8} {positions positions' : Buffer ℕ}
    {corners : ℕ} (hy : 2 ≤ y) (hring : RingHolds img threshold y scores positions)
    (hscan : RowScanned img threshold (y + 1) scores scores' positions positions' corners) :
    ∃ written, positions'.write (rowCornerPositionsStart img.width ((y + 1 : ℕ) % 3) - 1) corners
        = some written ∧
      RingHolds img threshold (y + 1) scores' written ∧
      (3 ≤ y → HoldsCorners img threshold y written) := by
  obtain ⟨hsize, hpsize, hheld, hframe, hcount, hread, hpframe⟩ := hscan
  have hslot : (0 : ℤ) ≤ ((y + 1 : ℕ) : ℤ) % 3 ∧ ((y + 1 : ℕ) : ℤ) % 3 ≤ 2 := by omega
  have hslot_positions : ((y + 1 : ℕ) : ℤ) % 3 * (img.width + 1) ≤ 2 * (img.width + 1) :=
    Int.mul_le_mul_of_nonneg_right hslot.2 (by omega)
  have hslot_nonneg : 0 ≤ ((y + 1 : ℕ) : ℤ) % 3 * (img.width + 1) :=
    Int.mul_nonneg hslot.1 (by omega)
  have hpositions_size := hring.positions_size
  have hin : positions'.InBounds (rowCornerPositionsStart img.width ((y + 1 : ℕ) % 3) - 1) := by
    simp only [rowCornerPositionsStart]
    exact ⟨by omega, by omega⟩
  have hlast : HoldsScores img threshold (y + 1) scores' := by
    refine hheld fun c hc => ?_
    have h := hring.scores (y + 1 - 3) (by omega) (by omega) c hc
    rwa [show ((y + 1 - 3 : ℕ) : ℤ) % 3 = ((y + 1 : ℕ) : ℤ) % 3 by omega] at h
  refine ⟨_, Buffer.write_eq_some hin corners,
    ⟨by rw [hsize]; exact hring.scores_size,
      by rw [Buffer.size_set, hpsize]; exact hring.positions_size, ?_, ?_⟩, ?_⟩
  · intro r hr hr'
    rcases hr.eq_or_lt with rfl | hlt
    · exact hlast
    · intro c hc
      have hdisjoint := row_disjoint (a := (r : ℤ) % 3) (b := ((y + 1 : ℕ) : ℤ) % 3) (c := c)
        (w := img.width) (by omega) (by omega) (by omega)
      rw [hframe _ (by simpa only [rowScoresStart] using hdisjoint)]
      exact hring.scores r (by omega) (by omega) c hc
  · intro hy3
    refine ⟨?_, fun k hk => ?_⟩
    · rw [Buffer.read_set_self hin, hcount]
    · rw [Buffer.read_set_of_ne (by simp only [rowCornerPositionsStart]; omega) (by omega)]
      exact hread k hk
  · intro hy3
    have hother : ∀ c : ℤ, 0 ≤ c → c < img.width + 1 →
        (positions'.set (rowCornerPositionsStart img.width ((y + 1 : ℕ) % 3) - 1) corners).read
            ((y : ℤ) % 3 * (img.width + 1) + c)
          = positions.read ((y : ℤ) % 3 * (img.width + 1) + c) := by
      intro c hc hcw
      have hdisjoint := row_disjoint (a := (y : ℤ) % 3) (b := ((y + 1 : ℕ) : ℤ) % 3) (c := c)
        (w := img.width + 1) (by omega) (by omega) (by omega)
      simp only [rowCornerPositionsStart] at hpframe ⊢
      rw [Buffer.read_set_of_ne (by omega) (by omega), hpframe _ (by omega)]
    obtain ⟨hnumber, hpos⟩ := hring.corners hy3
    refine ⟨?_, fun k hk => ?_⟩
    · rw [← hnumber]
      simpa [rowCornerPositionsStart, add_comm] using hother 0 le_rfl (by omega)
    · have hlen := img.length_rowCorners_le threshold y
      rw [← hpos k hk]
      have h := hother (1 + k) (by omega) (by omega)
      rwa [show (y : ℤ) % 3 * (img.width + 1) + (1 + k)
        = rowCornerPositionsStart img.width (y % 3) + k by
          simp only [rowCornerPositionsStart]; ring] at h

/-- The suppression of a row reads its corners, and compares each with its neighbours. -/
lemma suppression_reads {r k : ℕ} {scores : Buffer UInt8} {positions positions' : Buffer ℕ}
    (hring : RingHolds img threshold (r + 2) scores positions')
    (hcorners : HoldsCorners img threshold (r + 1) positions)
    (hk : k < (img.rowCorners threshold (r + 1)).length) :
    positions.read (rowCornerPositionsStart img.width ((r + 1 : ℕ) % 3) + k)
        = some ((img.rowCorners threshold (r + 1))[k]?.getD 0) ∧
      isMaximum scores (rowScoresStart img.width ((r + 1 : ℕ) % 3))
          (rowScoresStart img.width (r % 3)) (rowScoresStart img.width ((r + 2 : ℕ) % 3))
          ((img.rowCorners threshold (r + 1))[k]?.getD 0)
        = some (decide (img.BeatsNeighbours threshold (r + 1)
            ((img.rowCorners threshold (r + 1))[k]?.getD 0))) := by
  obtain ⟨hc, -⟩ := Raster.rowCorners_bound (List.getElem_mem hk)
  rw [List.getElem?_eq_getElem hk, Option.getD_some]
  constructor
  · rw [hcorners.2 k hk, List.getElem?_eq_getElem hk]
  · exact isMaximum_spec (by omega) (by omega) fun q hq hq' => hring.scores q hq' (by omega)

section Rows

variable {table : Buffer ℕ}

lemma extractRow_spec (max : ℕ) {y : ℕ} {e : Extraction} (hw : img.width ≤ 32768)
    (htable : IsLookupTable threshold.toNat table) (hy : 2 ≤ y)
    (hring : RingHolds img threshold y e.rowScores e.rowCornerPositions)
    (hout : e.out.outOfSpace = false) :
    ∃ scores positions, extractRow img.data img.width img.height threshold table max (y + 1 : ℕ) e
        = some ⟨scores, positions,
            (img.reportedPoints threshold y).foldl (OutKeypoints.push max) e.out⟩ ∧
      RingHolds img threshold (y + 1) scores positions := by
  have hslot : (((y + 1 : ℕ) : ℤ) - 3) % 3 = ((y + 1 : ℕ) : ℤ) % 3 := by omega
  obtain ⟨s, hs, hscanned⟩ := examineRow_spec (y := y + 1) hw htable (by omega) hring.scores_size
    hring.positions_size
  obtain ⟨positions, hwrite, hring', hprevious⟩ := ringHolds_succ hy hring hscanned
  refine ⟨s.scores, positions, ?_, hring'⟩
  simp only [extractRow, hslot, hs, hwrite, Option.bind_eq_bind, Option.bind_some]
  by_cases hfirst : ((y + 1 : ℕ) : ℤ) = 3
  · have hnil : img.reportedPoints threshold y = [] := by
      have hrow : ¬ (3 ≤ y ∧ y + 3 < img.height) := by omega
      simp [Raster.reportedPoints, Raster.reportedRow, Raster.rowCorners, hrow]
    rw [if_pos hfirst, hnil]
    rfl
  · have hprev : (((y + 1 : ℕ) : ℤ) - 1) % 3 = (y : ℤ) % 3 := by omega
    obtain ⟨r, rfl⟩ := Nat.exists_eq_add_of_le' (show 1 ≤ y by omega)
    have hsecond : (((r + 1 + 1 : ℕ) : ℤ) - 2) % 3 = (r : ℤ) % 3 := by omega
    have hcorners := hprevious (by omega)
    have hmap : (List.range (img.rowCorners threshold (r + 1)).length).map
        (fun k => (img.rowCorners threshold (r + 1))[k]?.getD 0)
          = img.rowCorners threshold (r + 1) :=
      List.ext_getElem (by simp) fun i _ hi => by simp [hi]
    have hsuppress := suppressRow_spec max
      (fun k hk => (suppression_reads hring' hcorners (List.mem_range.mp hk)).1)
      (fun k hk => (suppression_reads hring' hcorners (List.mem_range.mp hk)).2) hout
    rw [if_neg hfirst, hprev, hcorners.1, hsecond]
    simp only [Option.bind_some, hsuppress, hmap]
    rfl

/-- The loop over rows from the one after row `y` on. What is pushed after the space has run out
changes nothing, so the early return makes no difference. -/
lemma extractRows_spec (max : ℕ) {n y : ℕ} {e : Extraction} (hw : img.width ≤ 32768)
    (htable : IsLookupTable threshold.toNat table) (hy : 2 ≤ y)
    (hring : RingHolds img threshold y e.rowScores e.rowCornerPositions)
    (hout : e.out.outOfSpace = false) :
    ∃ e', extractRows img.data img.width img.height threshold table max
        ((List.range' (y + 1) n).map (Nat.cast : ℕ → ℤ)) e = some e' ∧
      e'.out = ((List.range' y n).flatMap
        (img.reportedPoints threshold)).foldl (OutKeypoints.push max) e.out ∧
      (e'.out.outOfSpace = false →
        RingHolds img threshold (y + n) e'.rowScores e'.rowCornerPositions) := by
  induction n generalizing y e with
  | zero => exact ⟨e, rfl, rfl, fun _ => hring⟩
  | succ n ih =>
    obtain ⟨scores, positions, hrow, hring'⟩ := extractRow_spec max hw htable hy hring hout
    simp only [List.range'_succ, List.map_cons, extractRows, hrow, Option.bind_eq_bind,
      Option.bind_some, List.flatMap_cons, List.foldl_append]
    split_ifs with hfull
    · rw [foldl_push_of_outOfSpace hfull]
      exact ⟨_, rfl, rfl, fun hspace => absurd (hfull.symm.trans hspace) (by decide)⟩
    · rw [Nat.add_comm n 1, ← Nat.add_assoc]
      exact ih (by omega) hring' (by simpa using hfull)

end Rows

/-! ### The whole function -/

lemma fastClearBuffer_spec {buffer : Buffer UInt8} {length : ℕ}
    (h : (length + 3) / 4 * 4 ≤ buffer.size) :
    ∃ cleared, fastClearBuffer buffer length = some cleared ∧ cleared.size = buffer.size ∧
      ∀ i : ℕ, i < length → cleared.read i = some 0 := by
  obtain ⟨cleared, hclear, hsize, hread⟩ := Loops.exists_foldlM_range (n := (length + 3) / 4)
    (f := fun (b : Buffer UInt8) (i : ℕ) => b.writeList (4 * i) [0, 0, 0, 0]) (s := buffer)
    (fun n (cleared : Buffer UInt8) => cleared.size = buffer.size ∧
      ∀ i : ℕ, i < n * 4 → cleared.read i = some 0)
    ⟨rfl, by simp⟩ (by
      rintro n hn b ⟨hsize, hread⟩
      refine ⟨_, Buffer.writeList_eq_some (by omega) (by simp; omega),
        (Buffer.size_setList b (4 * n) [0, 0, 0, 0]).trans hsize, fun i hi => ?_⟩
      by_cases hin : i < n * 4
      · rw [Buffer.read_setList_of_not_mem (by omega) (by simp; omega), hread i hin]
      · rw [Buffer.read_setList (by omega) (by simp; omega) (by omega) (by simp; omega)]
        have hk : ((i : ℤ) - 4 * n).toNat < 4 := by omega
        generalize ((i : ℤ) - 4 * n).toNat = m at hk
        interval_cases m <;> rfl)
  exact ⟨cleared, hclear, hsize, fun i hi => hread i (by omega)⟩

lemma scannedRows_eq (height : ℕ) :
    scannedRows height = (List.range' 3 (height - 5)).map (Nat.cast : ℕ → ℤ) := by
  have hlen : ((height : ℤ) - 5).toNat = height - 5 := by omega
  rw [scannedRows, hlen, List.range'_eq_map_range, List.map_map]
  refine List.map_congr_left fun n _ => ?_
  simp only [Function.comp_apply]
  push_cast
  ring

/-- Before the first row is scanned the slots hold the zeros of the initial clear. -/
lemma ringHolds_init {scores : Buffer UInt8} {positions : Buffer ℕ}
    (hscores : 3 * img.width ≤ scores.size) (hpositions : 3 * (img.width + 1) ≤ positions.size)
    (hzero : ∀ i : ℕ, i < 3 * img.width → scores.read i = some 0) :
    RingHolds img threshold 2 scores positions := by
  refine ⟨hscores, hpositions, fun r hr _ c hc => ?_, by omega⟩
  have hslot : (r : ℤ) % 3 = r := by omega
  have hheld : img.heldScore threshold r c = 0 := by interval_cases r <;> rfl
  have haddr : rowScoresStart img.width ((r : ℤ) % 3) + c = (r * img.width + c : ℕ) := by
    rw [hslot, rowScoresStart]
    push_cast
    ring
  have hlt : r * img.width + c < 3 * img.width := by
    calc r * img.width + c < (r + 1) * img.width := by rw [Nat.succ_mul]; omega
      _ ≤ 3 * img.width := Nat.mul_le_mul_right _ (by omega)
  rw [haddr, hzero _ hlt, hheld]

/-- The buffers with which the loop over rows starts. -/
lemma exists_rowScores (img : Raster) (threshold : UInt8) :
    ∃ rowScores, fastClearBuffer (Buffer.blank (((img.width : ℤ) * 3 / 4 + 1) * 4).toNat)
        ((img.width : ℤ) * 3).toNat = some rowScores ∧
      RingHolds img threshold 2 rowScores (Buffer.blank (((img.width : ℤ) + 1) * 3 * 2).toNat) := by
  have hlarge : (((img.width : ℤ) * 3).toNat + 3) / 4 * 4
      ≤ (Buffer.blank (((img.width : ℤ) * 3 / 4 + 1) * 4).toNat : Buffer UInt8).size := by
    rw [Buffer.size_blank]
    omega
  obtain ⟨scores, hscores, hsize, hzero⟩ := fastClearBuffer_spec hlarge
  refine ⟨scores, hscores, ringHolds_init ?_ ?_ fun i hi => hzero i (by omega)⟩
  · rw [hsize, Buffer.size_blank]
    omega
  · rw [Buffer.size_blank]
    omega

/-- Nothing is reported in row 2, which is not scanned. -/
lemma flatMap_reportedPoints (img : Raster) (threshold : UInt8) :
    (List.range' 2 (img.height - 5)).flatMap (img.reportedPoints threshold)
      = img.reported threshold := by
  have hnil : img.reportedPoints threshold 2 = [] := by
    simp [Raster.reportedPoints, Raster.reportedRow, Raster.rowCorners]
  rw [Raster.reported]
  by_cases hh : img.height ≤ 5
  · have h5 : img.height - 5 = 0 := by omega
    have h6 : img.height - 6 = 0 := by omega
    rw [h5, h6]
    rfl
  · have h5 : img.height - 5 = img.height - 6 + 1 := by omega
    rw [h5, List.range'_succ, List.flatMap_cons, hnil, List.nil_append]

/-- No access of `extractFeatures` is bad, and its output is the reported keypoints pushed one
after the other. -/
theorem extractFeatures_eq (hw : img.width ≤ 32768) (outKeypoints : ℕ → KeyPoint)
    (capacity : ℕ) :
    extractFeatures img.data img.width img.height threshold outKeypoints capacity
      = some ((img.reported threshold).foldl (OutKeypoints.push capacity)
          ⟨outKeypoints, 0, false⟩) := by
  obtain ⟨table, htable, hlookup⟩ := thresholdLookupTable_spec threshold.toNat
  obtain ⟨scores, hscores, hring⟩ := exists_rowScores img threshold
  obtain ⟨e, hrows, hout, -⟩ := extractRows_spec capacity (n := img.height - 5)
    (e := ⟨scores, _, ⟨outKeypoints, 0, false⟩⟩) hw hlookup le_rfl hring rfl
  rw [flatMap_reportedPoints] at hout
  rw [← hout, extractFeatures, htable, Option.bind_eq_bind, Option.bind_some, hscores,
    Option.bind_eq_bind, Option.bind_some, scannedRows_eq]
  exact congrArg (Option.bind · fun e => some e.out) hrows

/-- `extractFeatures` stores the prefix of the reported keypoints that fits. -/
theorem extractFeatures_spec (hw : img.width ≤ 32768) (outKeypoints : ℕ → KeyPoint)
    (capacity : ℕ) :
    extractFeatures img.data img.width img.height threshold outKeypoints capacity
      = some {
          keypoints := fun i =>
            (((img.reported threshold).take capacity)[i]?).getD (outKeypoints i)
          size := min capacity (img.reported threshold).length
          outOfSpace := decide (capacity < (img.reported threshold).length) } := by
  rw [extractFeatures_eq hw, foldl_push rfl (Nat.zero_le _)]
  simp

end VioFrontend
