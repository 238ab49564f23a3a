import VioFrontend.FeatureExtraction.Suppression

/-!
# The output of feature extraction

What a caller of `extractFeatures` can rely on: the call makes no bad access and ends, the
keypoints come out in row-major order without neighbours among them, and away from the right and
the lower margin they are exactly the strict local maxima of the corner score.
-/

namespace VioFrontend

open Checked

/-- `p` comes before `q` in row-major order. -/
def RowMajor (p q : Vec2) : Prop := p.y < q.y ∨ (p.y = q.y ∧ p.x < q.x)

/-- `p` and `q` are at most one pixel apart in both directions. -/
def Adjacent (p q : Vec2) : Prop := |p.x - q.x| ≤ 1 ∧ |p.y - q.y| ≤ 1

section

variable {img : Raster} {threshold : UInt8}

/-! ### The reported keypoints -/

lemma mem_reportedPoints {y : ℕ} {kp : KeyPoint} :
    kp ∈ img.reportedPoints threshold y ↔
      ∃ c ∈ img.rowCorners threshold y, img.BeatsNeighbours threshold y c ∧
        kp = Raster.keyPoint c y := by
  simp only [Raster.reportedPoints, Raster.reportedRow, List.mem_map, List.mem_filter,
    decide_eq_true_eq]
  constructor
  · rintro ⟨c, ⟨hc, hbeats⟩, rfl⟩
    exact ⟨c, hc, hbeats, rfl⟩
  · rintro ⟨c, hc, hbeats, rfl⟩
    exact ⟨c, ⟨hc, hbeats⟩, rfl⟩

lemma mem_reported {kp : KeyPoint} :
    kp ∈ img.reported threshold ↔
      ∃ y, ∃ c ∈ img.rowCorners threshold y, img.BeatsNeighbours threshold y c ∧
        kp = Raster.keyPoint c y := by
  simp only [Raster.reported, List.mem_flatMap, List.mem_range'_1, mem_reportedPoints]
  constructor
  · rintro ⟨y, -, hy⟩
    exact ⟨y, hy⟩
  · rintro ⟨y, c, hc, hy⟩
    have hb := (Raster.rowCorners_bound hc).2.1
    exact ⟨y, by omega, c, hc, hy⟩

lemma rowCorners_sorted (y : ℕ) : (img.rowCorners threshold y).Pairwise (· < ·) := by
  rw [Raster.rowCorners]
  split_ifs
  · exact Raster.cornersBetween_sorted _ _
  · exact List.Pairwise.nil

lemma reported_rowMajor :
    (img.reported threshold).Pairwise fun p q => RowMajor p.point q.point := by
  rw [Raster.reported, List.pairwise_flatMap]
  constructor
  · intro y _
    rw [Raster.reportedPoints, List.pairwise_map]
    refine ((rowCorners_sorted y).filter _).imp fun {c c'} h => Or.inr ⟨rfl, ?_⟩
    exact Nat.cast_lt.mpr h
  · refine (List.pairwise_lt_range' (s := 3) (n := img.height - 6)).imp
      fun {y y'} h p hp q hq => Or.inl ?_
    obtain ⟨c, -, -, rfl⟩ := mem_reportedPoints.mp hp
    obtain ⟨c', -, -, rfl⟩ := mem_reportedPoints.mp hq
    exact Nat.cast_lt.mpr h

/-- Of two neighbours at most one beats the other, whatever the ring holds. -/
lemma not_beatsNeighbours {y y' c c' : ℕ} (hin : 1 ≤ y ∧ 1 ≤ c) (hin' : 1 ≤ y' ∧ 1 ≤ c')
    (hy : y ≤ y' + 1 ∧ y' ≤ y + 1) (hc : c ≤ c' + 1 ∧ c' ≤ c + 1) (hne : ¬ (y = y' ∧ c = c'))
    (h : img.BeatsNeighbours threshold y c) : ¬ img.BeatsNeighbours threshold y' c' := by
  intro h'
  have hlt := h (y', c') ((mem_neighbours hin.1 hin.2).mpr (by simp only; omega))
  have hlt' := h' (y, c) ((mem_neighbours hin'.1 hin'.2).mpr (by simp only; omega))
  exact UInt8.lt_asymm hlt hlt'

lemma abs_natCast_sub_le_one {m n : ℕ} (h : |(m : ℚ) - n| ≤ 1) : m ≤ n + 1 ∧ n ≤ m + 1 := by
  obtain ⟨h1, h2⟩ := abs_le.mp h
  constructor <;> · rw [← Nat.cast_le (α := ℚ)]; push_cast; linarith

lemma reported_not_adjacent :
    (img.reported threshold).Pairwise fun p q => ¬ Adjacent p.point q.point := by
  refine reported_rowMajor.imp_of_mem fun {p q} hp hq horder hadj => ?_
  obtain ⟨y, c, hcorner, hbeats, rfl⟩ := mem_reported.mp hp
  obtain ⟨y', c', hcorner', hbeats', rfl⟩ := mem_reported.mp hq
  obtain ⟨hx, hy, -⟩ := Raster.rowCorners_bound hcorner
  obtain ⟨hx', hy', -⟩ := Raster.rowCorners_bound hcorner'
  refine not_beatsNeighbours (by omega) (by omega) (abs_natCast_sub_le_one hadj.2)
    (abs_natCast_sub_le_one hadj.1) ?_ hbeats hbeats'
  rintro ⟨rfl, rfl⟩
  rcases horder with h | ⟨-, h⟩ <;> exact lt_irrefl _ h

lemma length_reported_le : (img.reported threshold).length ≤ img.width * img.height := by
  have hrow : ∀ y, (img.reportedPoints threshold y).length ≤ img.width := fun y => by
    rw [Raster.reportedPoints, List.length_map]
    exact (List.length_filter_le _ _).trans (img.length_rowCorners_le threshold y)
  calc (img.reported threshold).length
      ≤ ((List.range' 3 (img.height - 6)).map fun _ => img.width).sum := by
        rw [Raster.reported, List.length_flatMap]
        exact List.sum_le_sum fun y _ => hrow y
    _ = (img.height - 6) * img.width := by simp
    _ ≤ img.width * img.height := by
        rw [Nat.mul_comm]
        exact Nat.mul_le_mul_left _ (Nat.sub_le _ _)

/-! ### The scores that the ring holds -/

namespace Raster

/-- The score of a pixel whose circle lies inside the image, and 0 for any other pixel. -/
def score (img : Raster) (threshold : UInt8) (x y : ℤ) : ℤ :=
  if (3 ≤ x ∧ x ≤ img.width - 4) ∧ (3 ≤ y ∧ y ≤ img.height - 4) then
    img.cornerScore threshold x y
  else 0

/-- The pixel is a corner, and its score is greater than those of its 8 neighbours. -/
def IsLocalMaximum (img : Raster) (threshold : UInt8) (x y : ℤ) : Prop :=
  0 < img.score threshold x y ∧
    ∀ dx dy : ℤ, (-1 ≤ dx ∧ dx ≤ 1) → (-1 ≤ dy ∧ dy ≤ 1) → (dx, dy) ≠ (0, 0) →
      img.score threshold (x + dx) (y + dy) < img.score threshold x y

/-- The three columns on the left stay zero. -/
lemma heldScore_left (y : ℕ) {c : ℕ} (hc : c < 3) : img.heldScore threshold y c = 0 := by
  have hc' : ¬ 3 ≤ c := by omega
  induction y using Nat.strong_induction_on with
  | _ y ih =>
    match y with
    | 0 | 1 | 2 => rfl
    | r + 3 => simp [heldScore, hc', ih r (by omega)]

/-- In the columns that every scan reaches, the ring holds the score of the pixel. -/
lemma toNat_heldScore {x y : ℕ} (hx : x + 8 ≤ img.width) (hy : 2 ≤ y ∧ y + 4 ≤ img.height) :
    ((img.heldScore threshold y x).toNat : ℤ) = img.score threshold x y := by
  by_cases hin : 3 ≤ x ∧ 3 ≤ y
  · obtain ⟨r, rfl⟩ := Nat.exists_eq_add_of_le' hin.2
    have hb := img.rowEnd_bound threshold (r + 3 : ℕ)
    have hrow : r + 3 + 3 < img.height := by omega
    have hexamined : 3 ≤ x ∧ x < img.rowEnd threshold (r + 3 : ℕ) := by omega
    rw [heldScore, if_pos hrow, if_pos hexamined, toNat_cornerScore, score, if_pos (by omega)]
  · rw [score, if_neg (by omega)]
    by_cases hx3 : x < 3
    · rw [heldScore_left _ hx3]
      rfl
    · obtain rfl : y = 2 := by omega
      rfl

end Raster

/-! ### Neighbours -/

lemma forall_neighbours_iff {P : ℤ → ℤ → Prop} {y c : ℕ} (hy : 1 ≤ y) (hc : 1 ≤ c) :
    (∀ n ∈ neighbours y c, P n.2 n.1) ↔
      ∀ dx dy : ℤ, (-1 ≤ dx ∧ dx ≤ 1) → (-1 ≤ dy ∧ dy ≤ 1) → (dx, dy) ≠ (0, 0) →
        P (c + dx) (y + dy) := by
  constructor
  · intro h dx dy hdx hdy hne
    have hne' : ¬ (dx = 0 ∧ dy = 0) := by simpa using hne
    have hcol : ((c + dx).toNat : ℤ) = c + dx := Int.toNat_of_nonneg (by omega)
    have hrow : ((y + dy).toNat : ℤ) = y + dy := Int.toNat_of_nonneg (by omega)
    rw [← hcol, ← hrow]
    refine h ((y + dy).toNat, (c + dx).toNat) ((mem_neighbours hy hc).mpr ?_)
    simp only [hcol, hrow]
    omega
  · intro h n hn
    obtain ⟨⟨hdx, hdy⟩, hne⟩ := (mem_neighbours hy hc).mp hn
    have h := h (n.2 - c) (n.1 - y) hdx hdy (by simpa using hne)
    rwa [add_sub_cancel, add_sub_cancel] at h

/-- The local maxima by the list of the neighbours. -/
lemma isLocalMaximum_iff_neighbours {x y : ℕ} (hx : 1 ≤ x) (hy : 1 ≤ y) :
    img.IsLocalMaximum threshold x y ↔ 0 < img.score threshold x y ∧
      ∀ n ∈ neighbours y x, img.score threshold n.2 n.1 < img.score threshold x y := by
  rw [forall_neighbours_iff (P := fun x' y' => img.score threshold x' y'
    < img.score threshold x y) hy hx, Raster.IsLocalMaximum]

lemma beatsNeighbours_iff {x y : ℕ} (hx : 3 ≤ x ∧ x + 9 ≤ img.width)
    (hy : 3 ≤ y ∧ y + 5 ≤ img.height) :
    img.BeatsNeighbours threshold y x ↔
      ∀ dx dy : ℤ, (-1 ≤ dx ∧ dx ≤ 1) → (-1 ≤ dy ∧ dy ≤ 1) → (dx, dy) ≠ (0, 0) →
        img.score threshold (x + dx) (y + dy) < img.score threshold x y := by
  rw [← forall_neighbours_iff (P := fun x' y' => img.score threshold x' y'
    < img.score threshold x y) (by omega) (by omega)]
  refine forall₂_congr fun n hn => ?_
  obtain ⟨⟨hdx, hdy⟩, -⟩ := (mem_neighbours (by omega) (by omega)).mp hn
  rw [UInt8.lt_iff_toNat_lt, ← Nat.cast_lt (α := ℤ), Raster.toNat_heldScore (by omega) (by omega),
    Raster.toNat_heldScore (by omega) (by omega)]

/-! ### Membership in the reported keypoints -/

lemma keyPoint_mem_reported {x y : ℕ} : Raster.keyPoint x y ∈ img.reported threshold ↔
    x ∈ img.rowCorners threshold y ∧ img.BeatsNeighbours threshold y x := by
  have hpoint : ∀ c r : ℕ, Raster.keyPoint x y = Raster.keyPoint c r ↔ x = c ∧ y = r := by
    intro c r
    simp [Raster.keyPoint]
  rw [mem_reported]
  constructor
  · rintro ⟨r, c, hc, hbeats, heq⟩
    obtain ⟨rfl, rfl⟩ := (hpoint c r).mp heq
    exact ⟨hc, hbeats⟩
  · rintro ⟨hc, hbeats⟩
    exact ⟨y, x, hc, hbeats, rfl⟩

/-- A pixel is recorded when the scan comes to it and it is a corner. -/
lemma mem_rowCorners_iff {x y : ℕ} (hx : 3 ≤ x) (hy : 3 ≤ y ∧ y + 4 ≤ img.height) :
    x ∈ img.rowCorners threshold y ↔
      x < img.rowEnd threshold y ∧ 0 < img.score threshold x y := by
  have hb := img.rowEnd_bound threshold y
  have hs := img.cornerScore_bound threshold x y
  rw [Raster.rowCorners, if_pos (by omega), Raster.mem_cornersBetween, Raster.score]
  constructor
  · rintro ⟨hxe, hne⟩
    rw [if_pos (by omega)]
    omega
  · rintro ⟨hxe, hpos⟩
    rw [if_pos (by omega)] at hpos
    omega

/-- Where the ring holds the scores of all 9 pixels, the local maxima are what is reported. -/
lemma mem_reported_iff {x y : ℕ} (hx : 3 ≤ x ∧ x + 9 ≤ img.width)
    (hy : 3 ≤ y ∧ y + 5 ≤ img.height) :
    Raster.keyPoint x y ∈ img.reported threshold ↔ img.IsLocalMaximum threshold x y := by
  have hend : x < img.rowEnd threshold y := by
    have hb := img.rowEnd_bound threshold y
    omega
  rw [keyPoint_mem_reported, mem_rowCorners_iff hx.1 (by omega), beatsNeighbours_iff hx hy,
    Raster.IsLocalMaximum]
  simp only [hend, true_and]

lemma getD_take {α : Type*} {l : List α} {i n : ℕ} (hn : i < n) (hi : i < l.length) (d : α) :
    ((l.take n)[i]?).getD d = l[i] := by
  rw [List.getElem?_take_of_lt hn, List.getElem?_eq_getElem hi, Option.getD_some]

/-- Every stored keypoint is a fresh pixel away from the margins. -/
lemma stored_keypoint {capacity i : ℕ} (hi : i < min capacity (img.reported threshold).length)
    (d : KeyPoint) :
    ∃ x y : ℕ, (((img.reported threshold).take capacity)[i]?).getD d = ⟨⟨x, y⟩, false⟩ ∧
      (3 ≤ x ∧ x + 5 ≤ img.width) ∧ (3 ≤ y ∧ y + 4 ≤ img.height) := by
  obtain ⟨hcap, hlen⟩ := lt_min_iff.mp hi
  rw [getD_take hcap hlen]
  obtain ⟨y, c, hc, -, heq⟩ := mem_reported.mp (List.getElem_mem hlen)
  obtain ⟨hx, hy, -⟩ := Raster.rowCorners_bound hc
  exact ⟨c, y, heq, by omega, by omega⟩

/-- The pixel `(x, y)` is among the keypoints written. -/
def OutKeypoints.Reports (out : OutKeypoints) (x y : ℕ) : Prop :=
  ∃ i < out.size, (out.keypoints i).point = ⟨x, y⟩

/-- With enough space the keypoints written are those that are reported. -/
lemma exists_extractFeatures (img : Raster) (threshold : UInt8) (hw : img.width ≤ 32768)
    (outKeypoints : ℕ → KeyPoint) (capacity : ℕ) :
    ∃ out, extractFeatures img.data img.width img.height threshold outKeypoints capacity
        = some out ∧
      (img.width * img.height ≤ capacity → out.outOfSpace = false) ∧
      (out.outOfSpace = false →
        ∀ x y, out.Reports x y ↔ Raster.keyPoint x y ∈ img.reported threshold) := by
  refine ⟨_, extractFeatures_spec hw outKeypoints capacity, ?_, ?_⟩
  · intro hcap
    exact decide_eq_false (not_lt.mpr (length_reported_le.trans hcap))
  · intro hspace x y
    have hlen : (img.reported threshold).length ≤ capacity :=
      not_lt.mp (of_decide_eq_false hspace)
    rw [List.mem_iff_getElem]
    simp only [OutKeypoints.Reports, min_eq_right hlen]
    constructor
    · rintro ⟨i, hi, hpoint⟩
      rw [getD_take (hi.trans_le hlen) hi] at hpoint
      obtain ⟨r, c, -, -, heq⟩ := mem_reported.mp (List.getElem_mem hi)
      refine ⟨i, hi, ?_⟩
      rw [heq] at hpoint ⊢
      simp only [Raster.keyPoint] at hpoint ⊢
      rw [hpoint]
    · rintro ⟨i, hi, heq⟩
      refine ⟨i, hi, ?_⟩
      rw [getD_take (hi.trans_le hlen) hi, heq]
      rfl

/-! ### Main results -/

/-- A bright pixel on black ground. -/
def brightDot : Raster := ⟨15, 12, fun x y => if x = 5 ∧ y = 5 then 255 else 0⟩

lemma isLocalMaximum_brightDot : brightDot.IsLocalMaximum 10 (5 : ℕ) (5 : ℕ) := by
  rw [isLocalMaximum_iff_neighbours (by decide) (by decide)]
  exact ⟨by decide +kernel, by decide +kernel⟩

def noKeypoints : ℕ → KeyPoint := fun _ => ⟨⟨0, 0⟩, true⟩

/-- Every access is in bounds and initialised, and every row scan ends. -/
theorem extractFeatures_isSome (img : Raster) (threshold : UInt8) (hw : img.width ≤ 32768)
    (outKeypoints : ℕ → KeyPoint) (capacity : ℕ) :
    (extractFeatures img.data img.width img.height threshold outKeypoints capacity).isSome := by
  rw [extractFeatures_spec hw]
  rfl

theorem extractFeatures_brightDot_isSome :
    (extractFeatures brightDot.data brightDot.width brightDot.height 10 noKeypoints 4).isSome :=
  extractFeatures_isSome brightDot 10 (by decide) noKeypoints 4

/-- The stored keypoints lie inside the image, are not stale, and are in row-major order without
two neighbours among them; there are at most as many as the buffer holds. -/
theorem extractFeatures_shape (img : Raster) (threshold : UInt8) (hw : img.width ≤ 32768)
    (outKeypoints : ℕ → KeyPoint) (capacity : ℕ) :
    ∃ out, extractFeatures img.data img.width img.height threshold outKeypoints capacity
        = some out ∧
      out.size ≤ capacity ∧
      (∀ i < out.size, ∃ x y : ℕ, out.keypoints i = ⟨⟨x, y⟩, false⟩ ∧
        (3 ≤ x ∧ x + 5 ≤ img.width) ∧ (3 ≤ y ∧ y + 4 ≤ img.height)) ∧
      ∀ i j, i < j → j < out.size →
        RowMajor (out.keypoints i).point (out.keypoints j).point ∧
          ¬ Adjacent (out.keypoints i).point (out.keypoints j).point := by
  refine ⟨_, extractFeatures_spec hw outKeypoints capacity, min_le_left _ _, ?_, ?_⟩
  · intro i hi
    exact stored_keypoint hi _
  · intro i j hij hj
    obtain ⟨hcap, hlen⟩ := lt_min_iff.mp hj
    simp only [getD_take hcap hlen, getD_take (hij.trans hcap) (hij.trans hlen)]
    exact ⟨List.pairwise_iff_getElem.mp reported_rowMajor i j _ hlen hij,
      List.pairwise_iff_getElem.mp reported_not_adjacent i j _ hlen hij⟩

/-- Two bright pixels in one row. -/
def brightDots : Raster := ⟨24, 12, fun x y => if (x = 5 ∨ x = 13) ∧ y = 5 then 24 else 0⟩

lemma mem_reported_brightDots :
    Raster.keyPoint 5 5 ∈ brightDots.reported 10 ∧
      Raster.keyPoint 13 5 ∈ brightDots.reported 10 := by
  rw [mem_reported_iff (by decide) (by decide), mem_reported_iff (by decide) (by decide),
    isLocalMaximum_iff_neighbours (by decide) (by decide),
    isLocalMaximum_iff_neighbours (by decide) (by decide)]
  exact ⟨⟨by decide +kernel, by decide +kernel⟩, by decide +kernel, by decide +kernel⟩

/-- Both pixels are stored, the left one first. -/
theorem extractFeatures_brightDots_shape :
    ∃ out, extractFeatures brightDots.data brightDots.width brightDots.height 10 noKeypoints 288
        = some out ∧ out.size ≤ 288 ∧ ∃ i j, (i < j ∧ j < out.size) ∧
      (out.keypoints i).point = ⟨(5 : ℕ), (5 : ℕ)⟩ ∧
      (out.keypoints j).point = ⟨(13 : ℕ), (5 : ℕ)⟩ ∧
      RowMajor (out.keypoints i).point (out.keypoints j).point ∧
      ¬ Adjacent (out.keypoints i).point (out.keypoints j).point := by
  obtain ⟨out, hout, hsize, -, hpairs⟩ :=
    extractFeatures_shape brightDots 10 (by decide) noKeypoints 288
  obtain ⟨out', hout', hspace, hreports⟩ :=
    exists_extractFeatures brightDots 10 (by decide) noKeypoints 288
  obtain rfl : out = out' := Option.some.inj (hout.symm.trans hout')
  have hreports := hreports (hspace (by decide))
  obtain ⟨i, hi, hleft⟩ := (hreports 5 5).mpr mem_reported_brightDots.1
  obtain ⟨j, hj, hright⟩ := (hreports 13 5).mpr mem_reported_brightDots.2
  have hlt : i < j := by
    rcases lt_trichotomy i j with h | rfl | h
    · exact h
    · rw [hleft] at hright
      simp at hright
    · -- the other order would put column 13 before column 5
      have horder := (hpairs j i h hi).1
      rw [hleft, hright] at horder
      norm_num [RowMajor] at horder
  exact ⟨out, hout, hsize, i, j, ⟨hlt, hj⟩, hleft, hright, hpairs i j hlt hj⟩

/-- Away from the right and the lower margin the stored keypoints are exactly the local maxima of
the corner score. -/
theorem extractFeatures_interior (img : Raster) (threshold : UInt8) (hw : img.width ≤ 32768)
    (outKeypoints : ℕ → KeyPoint) (capacity : ℕ) :
    ∃ out, extractFeatures img.data img.width img.height threshold outKeypoints capacity
        = some out ∧
      (img.width * img.height ≤ capacity → out.outOfSpace = false) ∧
      (out.outOfSpace = false → ∀ x y : ℕ, (3 ≤ x ∧ x + 9 ≤ img.width) →
        (3 ≤ y ∧ y + 5 ≤ img.height) →
        ((∃ i < out.size, (out.keypoints i).point = ⟨x, y⟩) ↔
          img.IsLocalMaximum threshold x y)) := by
  obtain ⟨out, hout, hcapacity, hreports⟩ :=
    exists_extractFeatures img threshold hw outKeypoints capacity
  refine ⟨out, hout, hcapacity, fun hspace x y hx hy => ?_⟩
  rw [← mem_reported_iff hx hy]
  exact hreports hspace x y

theorem extractFeatures_brightDot_interior :
    ∃ out, extractFeatures brightDot.data brightDot.width brightDot.height 10 noKeypoints 180
        = some out ∧ ∃ i < out.size, (out.keypoints i).point = ⟨(5 : ℕ), (5 : ℕ)⟩ := by
  obtain ⟨out, hout, hspace, hinterior⟩ := extractFeatures_interior brightDot 10
    (by decide) noKeypoints 180
  exact ⟨out, hout, (hinterior (hspace (by decide)) 5 5 (by decide) (by decide)).mpr
    isLocalMaximum_brightDot⟩

end

end VioFrontend
