import VioFrontend.FeatureExtraction.Prefilter

/-!
# The scan of a row

What the loop over groups of four leaves behind. A group clears four scores and moves on by one
to four pixels; what it moves past without evaluating has score 0 by the prefilter. So between
the first column and the column where the scan ends every score is the corner score of its
pixel, and the recorded positions are the columns with a nonzero one.

`Covers` says this for a part of a row, and parts compose. The column where the scan ends
(`Raster.rowEnd`) depends on the pixels, and so does the last column that it clears
(`Raster.rowCleared`).
-/

namespace VioFrontend

open Checked PackedBytes

/-! ### The groups as a function of the image -/

namespace Raster

/-- The first diagonal test of the group at `(x, y)`. -/
def firstMasks (img : Raster) (threshold : UInt8) (x y : ℤ) : Masks :=
  diagonalTest (uqadd8 (img.word x y) (thresholdPacked threshold))
    (uqsub8 (img.word x y) (thresholdPacked threshold))
    (img.circleWord x y 8) (img.circleWord x y 0) ⟨0x0, 0x0⟩

/-- The second diagonal test of the group at `(x, y)`. -/
def secondMasks (img : Raster) (threshold : UInt8) (x y : ℤ) : Masks :=
  diagonalTest (uqadd8 (img.word x y) (thresholdPacked threshold))
    (uqsub8 (img.word x y) (thresholdPacked threshold))
    (img.circleWord x y 4) (img.circleWord x y 12) (img.firstMasks threshold x y)

/-- How far the group at `(x, y)` steps back; `none` when its pixels are evaluated. -/
def groupBack (img : Raster) (threshold : UInt8) (x y : ℤ) : Option ℤ :=
  match stepBack (img.firstMasks threshold x y).combined with
  | some back => some back
  | none => stepBack (img.secondMasks threshold x y).combined

/-- The column of the group after the one at column `x`. -/
def nextGroup (img : Raster) (threshold : UInt8) (y : ℤ) (x : ℕ) : ℕ :=
  x + 4 - ((img.groupBack threshold x y).getD 0).toNat

/-- The column where the scan of row `y` ends that has come to column `x`. -/
def scanEnd (img : Raster) (threshold : UInt8) (y : ℤ) : ℕ → ℕ → ℕ
  | 0, x => x
  | fuel + 1, x =>
    if (x : ℤ) < img.width - 7 then img.scanEnd threshold y fuel (img.nextGroup threshold y x)
    else x

/-- The end of the columns that this scan clears. -/
def scanCleared (img : Raster) (threshold : UInt8) (y : ℤ) : ℕ → ℕ → ℕ
  | 0, x => x
  | fuel + 1, x =>
    if (x : ℤ) < img.width - 7 then
      max (x + 4) (img.scanCleared threshold y fuel (img.nextGroup threshold y x))
    else x

/-- The column where the scan of row `y` ends: the columns from 3 to it have been examined. -/
def rowEnd (img : Raster) (threshold : UInt8) (y : ℤ) : ℕ := img.scanEnd threshold y img.width 3

/-- The end of the columns that the scan of row `y` clears. -/
def rowCleared (img : Raster) (threshold : UInt8) (y : ℤ) : ℕ :=
  img.scanCleared threshold y img.width 3

/-- The corners of row `y` in the columns from `x` to before `x'`. -/
def cornersBetween (img : Raster) (threshold : UInt8) (y : ℤ) (x x' : ℕ) : List ℕ :=
  (List.range' x (x' - x)).filter fun c => img.cornerScore threshold c y ≠ 0

variable {img : Raster} {threshold : UInt8} {y : ℤ}

/-- A pixel whose mask byte is 0 after the first test has points 0 and 8 within range. -/
lemma not_segmentTest_of_firstMasks {x : ℤ} {k : ℕ} (hk : k < 4)
    (h : lane (img.firstMasks threshold x y).combined k = 0) :
    ¬ img.SegmentTest (x + k) y threshold.toNat := by
  obtain ⟨h8, h0⟩ := withinRange_of_diagonalTest hk h
  rw [lane_word _ _ _ hk, lane_circleWord _ _ _ _ hk] at h8 h0
  exact not_segmentTest_of_withinRange 0 h0 h8

/-- A pixel whose mask byte is 0 after the second test has points 4 and 12 within range. -/
lemma not_segmentTest_of_secondMasks {x : ℤ} {k : ℕ} (hk : k < 4)
    (h : lane (img.secondMasks threshold x y).combined k = 0) :
    ¬ img.SegmentTest (x + k) y threshold.toNat := by
  obtain ⟨h4, h12⟩ := withinRange_of_diagonalTest hk h
  rw [lane_word _ _ _ hk, lane_circleWord _ _ _ _ hk] at h4 h12
  exact not_segmentTest_of_withinRange 4 h4 h12

/-- A group that is not evaluated has no corner in the columns that it moves past. -/
lemma groupBack_spec {x : ℤ} {back : ℤ} (h : img.groupBack threshold x y = some back) :
    (0 ≤ back ∧ back ≤ 3) ∧
      ∀ k : ℕ, (k : ℤ) < 4 - back → ¬ img.SegmentTest (x + k) y threshold.toNat := by
  rw [groupBack] at h
  split at h
  · obtain rfl := Option.some.inj h
    rename_i hback
    obtain ⟨hb, hlane⟩ := stepBack_spec hback
    exact ⟨hb, fun k hk => not_segmentTest_of_firstMasks (by omega) (hlane k hk)⟩
  · obtain ⟨hb, hlane⟩ := stepBack_spec h
    exact ⟨hb, fun k hk => not_segmentTest_of_secondMasks (by omega) (hlane k hk)⟩

lemma nextGroup_bound (img : Raster) (threshold : UInt8) (y : ℤ) (x : ℕ) :
    x + 1 ≤ img.nextGroup threshold y x ∧ img.nextGroup threshold y x ≤ x + 4 := by
  rw [nextGroup]
  cases h : img.groupBack threshold x y with
  | none => simp
  | some back =>
    have hb := (groupBack_spec h).1
    simp only [Option.getD_some]
    omega

/-- The scan does not end before the loop condition fails, and stays within the row. -/
lemma scanEnd_bound (img : Raster) (threshold : UInt8) (y : ℤ) {fuel x : ℕ}
    (hfuel : (img.width : ℤ) - 7 - x ≤ fuel) :
    (x ≤ img.scanEnd threshold y fuel x ∧
      img.scanEnd threshold y fuel x ≤ img.scanCleared threshold y fuel x) ∧
      (img.width : ℤ) - 7 ≤ img.scanEnd threshold y fuel x ∧
      (img.scanCleared threshold y fuel x : ℤ) ≤ max x (img.width - 4) := by
  induction fuel generalizing x with
  | zero => simp only [scanEnd, scanCleared]; omega
  | succ fuel ih =>
    have hnext := img.nextGroup_bound threshold y x
    simp only [scanEnd, scanCleared]
    split_ifs with hx
    · have := ih (x := img.nextGroup threshold y x) (by omega)
      omega
    · omega

lemma rowEnd_bound (img : Raster) (threshold : UInt8) (y : ℤ) :
    (3 ≤ img.rowEnd threshold y ∧ img.rowEnd threshold y ≤ img.rowCleared threshold y) ∧
      (img.width : ℤ) - 7 ≤ img.rowEnd threshold y ∧
      (img.rowCleared threshold y : ℤ) ≤ max 3 (img.width - 4) :=
  img.scanEnd_bound threshold y (by omega)

/-! ### Lists of corners -/

lemma cornersBetween_append (img : Raster) (threshold : UInt8) (y : ℤ) {x x' x'' : ℕ}
    (h : x ≤ x') (h' : x' ≤ x'') :
    img.cornersBetween threshold y x x' ++ img.cornersBetween threshold y x' x''
      = img.cornersBetween threshold y x x'' := by
  obtain ⟨m, rfl⟩ := Nat.exists_eq_add_of_le h
  obtain ⟨n, rfl⟩ := Nat.exists_eq_add_of_le h'
  have hm : x + m - x = m := by omega
  have hn : x + m + n - (x + m) = n := by omega
  have hmn : x + m + n - x = m + n := by omega
  simp only [cornersBetween, hm, hn, hmn, ← List.filter_append, List.range'_append_1]

lemma cornersBetween_eq_nil {x x' : ℕ}
    (h : ∀ c, x ≤ c → c < x' → img.cornerScore threshold c y = 0) :
    img.cornersBetween threshold y x x' = [] := by
  simp only [cornersBetween, List.filter_eq_nil_iff, List.mem_range'_1]
  rintro c ⟨hx, hx'⟩
  simp [h c hx (by omega)]

lemma cornersBetween_succ (img : Raster) (threshold : UInt8) (y : ℤ) (x : ℕ) :
    img.cornersBetween threshold y x (x + 1)
      = if img.cornerScore threshold x y ≠ 0 then [x] else [] := by
  have hone : x + 1 - x = 1 := by omega
  by_cases h : img.cornerScore threshold x y = 0 <;> simp [cornersBetween, hone, h]

lemma mem_cornersBetween {x x' c : ℕ} :
    c ∈ img.cornersBetween threshold y x x' ↔
      (x ≤ c ∧ c < x') ∧ img.cornerScore threshold c y ≠ 0 := by
  simp only [cornersBetween, List.mem_filter, List.mem_range'_1, decide_eq_true_eq]
  refine and_congr_left fun _ => ?_
  omega

lemma length_cornersBetween_le (img : Raster) (threshold : UInt8) (y : ℤ) (x x' : ℕ) :
    (img.cornersBetween threshold y x x').length ≤ x' - x := by
  calc (img.cornersBetween threshold y x x').length
      ≤ (List.range' x (x' - x)).length := List.length_filter_le _ _
    _ = x' - x := List.length_range'

lemma cornersBetween_sorted (x x' : ℕ) :
    (img.cornersBetween threshold y x x').Pairwise (· < ·) :=
  List.Pairwise.filter _ List.pairwise_lt_range'

end Raster

/-! ### Parts of a row -/

/-- The update of the score and of the position buffer by the scan of row `y` from column `x`
to before column `x'`, which has cleared up to before column `stop`. -/
structure Covers (img : Raster) (c : RowContext) (y : ℤ) (x x' stop : ℕ)
    (s s' : RowScan) : Prop where
  scores_size : s'.scores.size = s.scores.size
  positions_size : s'.positions.size = s.positions.size
  evaluated : ∀ k : ℕ, x ≤ k → k < x' → s'.scores.read (c.currentRowScores + k)
    = some (UInt8.ofInt (img.cornerScore c.threshold k y))
  cleared : ∀ k : ℕ, x' ≤ k → k < stop → s'.scores.read (c.currentRowScores + k) = some 0
  scores_frame : ∀ k, k < c.currentRowScores + x ∨ c.currentRowScores + stop ≤ k →
    s'.scores.read k = s.scores.read k
  corners : s'.corners = s.corners + (img.cornersBetween c.threshold y x x').length
  positions : ∀ k : ℕ, k < (img.cornersBetween c.threshold y x x').length →
    s'.positions.read (c.currentRowCornerPositions + (s.corners + k : ℕ))
      = (img.cornersBetween c.threshold y x x')[k]?
  positions_frame : ∀ k, k < c.currentRowCornerPositions + s.corners ∨
    c.currentRowCornerPositions + s'.corners ≤ k → s'.positions.read k = s.positions.read k

namespace Covers

variable {img : Raster} {c : RowContext} {y : ℤ} {x x' x₁ x₂ e₁ e₂ : ℕ} {s s' s₁ s₂ : RowScan}

lemma refl (s : RowScan) : Covers img c y x x x s s := by
  have hnil : img.cornersBetween c.threshold y x x = [] :=
    Raster.cornersBetween_eq_nil (by omega)
  refine ⟨rfl, rfl, ?_, ?_, fun _ _ => rfl, by simp [hnil], ?_, fun _ _ => rfl⟩
  · intro k hk hk'
    omega
  · intro k hk hk'
    omega
  · intro k hk
    simp [hnil] at hk

/-- The next part starts where this one has ended, so it overwrites what was only cleared. -/
lemma trans (h₁ : Covers img c y x x₁ e₁ s s₁) (h₂ : Covers img c y x₁ x₂ e₂ s₁ s₂)
    (hx : x ≤ x₁) (hx' : x₁ ≤ x₂) :
    Covers img c y x x₂ (max e₁ e₂) s s₂ := by
  have hcorners := img.cornersBetween_append c.threshold y hx hx'
  constructor
  · rw [h₂.scores_size, h₁.scores_size]
  · rw [h₂.positions_size, h₁.positions_size]
  · intro k hk hk'
    by_cases hk₁ : k < x₁
    · rw [h₂.scores_frame _ (by omega), h₁.evaluated k hk hk₁]
    · exact h₂.evaluated k (by omega) hk'
  · intro k hk hk'
    by_cases hk₂ : k < e₂
    · exact h₂.cleared k hk hk₂
    · rw [h₂.scores_frame _ (by omega), h₁.cleared k (by omega) (by omega)]
  · intro k hk
    rw [h₂.scores_frame k (by omega), h₁.scores_frame k (by omega)]
  · rw [h₂.corners, h₁.corners, ← hcorners, List.length_append, Nat.add_assoc]
  · intro k hk
    rw [← hcorners] at hk ⊢
    by_cases hk₁ : k < (img.cornersBetween c.threshold y x x₁).length
    · have := h₁.corners
      rw [List.getElem?_append_left hk₁, h₂.positions_frame _ (by omega), h₁.positions k hk₁]
    · rw [List.length_append] at hk
      rw [List.getElem?_append_right (by omega), ← h₂.positions _ (by omega), h₁.corners]
      congr 3
      omega
  · intro k hk
    have := h₁.corners
    have := h₂.corners
    rw [h₂.positions_frame k (by omega), h₁.positions_frame k (by omega)]

/-- Clearing four scores. -/
lemma clear (img : Raster) (y : ℤ) {scores : Buffer UInt8} (hrow : 0 ≤ c.currentRowScores)
    (hsize : c.currentRowScores + (x + 4) ≤ s.scores.size)
    (hscores : s.scores.setList (c.currentRowScores + x) [0, 0, 0, 0] = scores) :
    Covers img c y x x (x + 4) s { s with scores } := by
  subst hscores
  have hnil : img.cornersBetween c.threshold y x x = [] :=
    Raster.cornersBetween_eq_nil (by omega)
  refine ⟨Buffer.size_setList _ _ _, rfl, ?_, ?_, ?_, by simp [hnil], ?_, fun _ _ => rfl⟩
  · intro k hk hk'
    omega
  · intro k hk hk'
    rw [Buffer.read_setList (by omega) (by simp; omega) (by omega) (by simp; omega)]
    have hk4 : (c.currentRowScores + k - (c.currentRowScores + x)).toNat < 4 := by omega
    generalize (c.currentRowScores + k - (c.currentRowScores + x)).toNat = m at hk4
    interval_cases m <;> rfl
  · intro k hk
    exact Buffer.read_setList_of_not_mem (by omega) (by simp; omega)
  · intro k hk
    simp [hnil] at hk

/-- Moving past columns that are cleared and have no corner. -/
lemma skip {stop : ℕ} (h : Covers img c y x x stop s s') (x' : ℕ) (hx : x ≤ x') (hstop : x' ≤ stop)
    (hzero : ∀ k : ℕ, x ≤ k → k < x' → img.cornerScore c.threshold k y = 0) :
    Covers img c y x x' stop s s' := by
  have hnil := Raster.cornersBetween_eq_nil hzero
  have hnil' : img.cornersBetween c.threshold y x x = [] :=
    Raster.cornersBetween_eq_nil (by omega)
  have hcorners := h.corners
  rw [hnil'] at hcorners
  refine ⟨h.scores_size, h.positions_size, ?_, fun k hk hk' => h.cleared k (by omega) hk',
    h.scores_frame, by rw [hnil, hcorners], ?_, h.positions_frame⟩
  · intro k hk hk'
    rw [hzero k hk hk', h.cleared k hk (by omega)]
    rfl
  · intro k hk
    simp [hnil] at hk

end Covers

/-! ### The steps of the scan -/

/-- The image and the row that a context is about, and room for the row in both buffers. -/
structure RowContext.Fits (c : RowContext) (img : Raster) (y : ℤ) (s : RowScan) : Prop where
  image : c.image = img.data
  width : c.width = img.width
  width_le : img.width ≤ 32768
  table : IsLookupTable c.threshold.toNat c.table
  row : 3 ≤ y ∧ y + 3 < img.height
  scores_nonneg : 0 ≤ c.currentRowScores
  scores : c.currentRowScores + img.width ≤ s.scores.size
  positions_nonneg : 0 ≤ c.currentRowCornerPositions
  positions : c.currentRowCornerPositions + img.width ≤ s.positions.size

variable {img : Raster} {c : RowContext} {y : ℤ} {x x' stop : ℕ} {s s' : RowScan}

lemma RowContext.Fits.of_covers (hfits : c.Fits img y s) (h : Covers img c y x x' stop s s') :
    c.Fits img y s' :=
  { hfits with
    scores := by rw [h.scores_size]; exact hfits.scores
    positions := by rw [h.positions_size]; exact hfits.positions }

lemma Covers.corners_le (h : Covers img c y x x' stop s s') :
    s'.corners ≤ s.corners + (x' - x) := by
  have := img.length_cornersBetween_le c.threshold y x x'
  have := h.corners
  omega

/-- One pixel of a group is evaluated; a corner is recorded behind those found before. -/
lemma evaluateLane_spec (idx : ℕ) (hfits : c.Fits img y s) (hi : s.i = x)
    (hptr : s.pixelPtr = y * img.width + x) (hx : 3 ≤ x) (hw : x + idx + 3 < img.width)
    (hcorners : s.corners ≤ x + idx) :
    ∃ s', evaluateLane c s idx = some s' ∧ (s'.i = s.i ∧ s'.pixelPtr = s.pixelPtr) ∧
      Covers img c y (x + idx) (x + idx + 1) (x + idx + 1) s s' := by
  obtain ⟨himage, hwidth, hle, htable, hrow, hs0, hs, hp0, hp⟩ := hfits
  have hinside : img.CircleInside (x + idx : ℕ) y := ⟨by omega, by omega⟩
  have heval := evaluateCornerCandidate_spec hinside htable
  have haddr : s.pixelPtr + idx = y * img.width + (x + idx : ℕ) := by push_cast; omega
  have hcol : s.i + idx = (x + idx : ℕ) := by push_cast; omega
  have hin : s.scores.InBounds (c.currentRowScores + (x + idx : ℕ)) := ⟨by omega, by omega⟩
  have hcast : (x + idx) % 2 ^ 16 = x + idx := Nat.mod_eq_of_lt (by omega)
  have hcount : (s.corners + 1) % 2 ^ 16 = s.corners + 1 := Nat.mod_eq_of_lt (by omega)
  have hscore : UInt8.ofInt (img.cornerScore c.threshold (x + idx : ℕ) y) ≠ 0 ↔
      img.cornerScore c.threshold (x + idx : ℕ) y ≠ 0 := by
    have h := img.toNat_cornerScore c.threshold (x + idx : ℕ) y
    rw [not_iff_not, ← UInt8.toNat_inj]
    simp only [UInt8.toNat_zero]
    omega
  simp only [evaluateLane, himage, hwidth, haddr, hcol, heval, Option.bind_eq_bind,
    Option.bind_some, Buffer.write_eq_some hin, Buffer.read_set_self hin, hscore,
    Int.toNat_natCast, hcast, hcount]
  have hframe : ∀ v k, k < c.currentRowScores + (x + idx : ℕ) ∨
      c.currentRowScores + (x + idx + 1 : ℕ) ≤ k →
      (s.scores.set (c.currentRowScores + (x + idx : ℕ)) v).read k = s.scores.read k :=
    fun v k hk => Buffer.read_set_of_ne (by omega) (by omega) v
  have heval_self : ∀ k : ℕ, x + idx ≤ k → k < x + idx + 1 →
      (s.scores.set (c.currentRowScores + (x + idx : ℕ))
        (UInt8.ofInt (img.cornerScore c.threshold (x + idx : ℕ) y))).read (c.currentRowScores + k)
        = some (UInt8.ofInt (img.cornerScore c.threshold k y)) := by
    intro k hk hk'
    obtain rfl : k = x + idx := by omega
    exact Buffer.read_set_self hin _
  have hsucc := img.cornersBetween_succ c.threshold y (x + idx)
  split_ifs with hzero
  · have hpin : s.positions.InBounds (c.currentRowCornerPositions + s.corners) :=
      ⟨by omega, by omega⟩
    rw [Buffer.write_eq_some hpin]
    rw [if_pos hzero] at hsucc
    refine ⟨_, rfl, ⟨hcol ▸ rfl, rfl⟩, rfl, rfl, heval_self, by omega, hframe _, by simp [hsucc],
      ?_, ?_⟩
    · intro k hk
      obtain rfl : k = 0 := by simpa [hsucc] using hk
      simpa [hsucc] using Buffer.read_set_self hpin (x + idx)
    · intro k hk
      exact Buffer.read_set_of_ne (by omega) (by simp only at hk; omega) _
  · rw [if_neg hzero] at hsucc
    refine ⟨_, rfl, ⟨rfl, rfl⟩, rfl, rfl, heval_self, by omega, hframe _, by simp [hsucc], ?_,
      fun _ _ => rfl⟩
    intro k hk
    simp [hsucc] at hk

/-- The four pixels of a group are evaluated one after the other. -/
lemma evaluateLanes_spec (hfits : c.Fits img y s) (hi : s.i = x)
    (hptr : s.pixelPtr = y * img.width + x) (hx : 3 ≤ x) (hw : x + 6 < img.width)
    (hcorners : s.corners ≤ x) :
    ∃ s', (do
        let s ← evaluateLane c s 0
        let s ← evaluateLane c s 1
        let s ← evaluateLane c s 2
        let s ← evaluateLane c s 3
        return s.advance 0) = some s' ∧
      (s'.i = s.i + 4 ∧ s'.pixelPtr = s.pixelPtr + 4) ∧ Covers img c y x (x + 4) (x + 4) s s' := by
  obtain ⟨s₁, h₁, ⟨hi₁, hptr₁⟩, hc₁⟩ := evaluateLane_spec 0 hfits hi hptr hx (by omega)
    (by omega)
  have hle₁ := hc₁.corners_le
  have hfits₁ := hfits.of_covers hc₁
  obtain ⟨s₂, h₂, ⟨hi₂, hptr₂⟩, hc₂⟩ := evaluateLane_spec 1 hfits₁ (hi₁.trans hi)
    (hptr₁.trans hptr) hx (by omega) (by omega)
  have hle₂ := hc₂.corners_le
  have hfits₂ := hfits₁.of_covers hc₂
  obtain ⟨s₃, h₃, ⟨hi₃, hptr₃⟩, hc₃⟩ := evaluateLane_spec 2 hfits₂
    (hi₂.trans (hi₁.trans hi)) (hptr₂.trans (hptr₁.trans hptr)) hx (by omega) (by omega)
  have hle₃ := hc₃.corners_le
  obtain ⟨s₄, h₄, ⟨hi₄, hptr₄⟩, hc₄⟩ := evaluateLane_spec 3 (hfits₂.of_covers hc₃)
    (hi₃.trans (hi₂.trans (hi₁.trans hi))) (hptr₃.trans (hptr₂.trans (hptr₁.trans hptr))) hx
    (by omega) (by omega)
  have hall := ((hc₁.trans hc₂ (by omega) (by omega)).trans hc₃ (by omega) (by omega)).trans hc₄
    (by omega) (by omega)
  refine ⟨s₄.advance 0, ?_, ⟨?_, ?_⟩, ?_⟩
  · simp only [h₁, h₂, h₃, h₄, Option.bind_eq_bind, Option.bind_some, Option.pure_def]
  · simp only [RowScan.advance]
    omega
  · simp only [RowScan.advance]
    omega
  · have hmax : max (max (max (x + 0 + 1) (x + 1 + 1)) (x + 2 + 1)) (x + 3 + 1) = x + 4 := by omega
    rw [hmax] at hall
    exact { hall with }

lemma packedBounds_data (img : Raster) (threshold : UInt8) {x y : ℤ} (hx : 3 ≤ x)
    (hw : x + 6 < img.width) (hrow : 3 ≤ y ∧ y + 3 < img.height) :
    packedBounds img.data threshold (y * img.width + x)
      = some (uqadd8 (img.word x y) (thresholdPacked threshold),
          uqsub8 (img.word x y) (thresholdPacked threshold)) := by
  have hcentre := loadWord_data img x y (by omega) (by omega) (by omega)
  simp only [packedBounds, hcentre, Option.bind_eq_bind, Option.bind_some, Option.pure_def]

lemma testDiagonal_data {img : Raster} {x y : ℤ} (bounds : BitVec 32 × BitVec 32) (k l : Fin 25)
    (old : Masks) (hx : 3 ≤ x) (hw : x + 6 < img.width) (hrow : 3 ≤ y ∧ y + 3 < img.height) :
    testDiagonal img.data img.width (y * img.width + x) bounds k l old
      = some (diagonalTest bounds.1 bounds.2 (img.circleWord x y k) (img.circleWord x y l)
          old) := by
  simp only [testDiagonal, loadWord_circle _ hx hw hrow, Option.bind_eq_bind, Option.bind_some,
    Option.pure_def]

lemma testGroup_spec (img : Raster) (threshold : UInt8) {x y : ℤ} (hx : 3 ≤ x)
    (hw : x + 6 < img.width) (hrow : 3 ≤ y ∧ y + 3 < img.height) :
    testGroup img.data img.width threshold (y * img.width + x)
      = some (img.groupBack threshold x y) := by
  simp only [testGroup, packedBounds_data img threshold hx hw hrow,
    testDiagonal_data _ _ _ _ hx hw hrow, Option.bind_eq_bind, Option.bind_some,
    Fin.coe_ofNat_eq_mod, Nat.reduceMod]
  rw [Raster.groupBack, Raster.secondMasks, Raster.firstMasks]
  generalize stepBack (diagonalTest _ _ (img.circleWord x y 8) _ _).combined = first
  cases first <;> rfl

/-- One iteration of the loop over groups. -/
lemma scanGroup_spec (hfits : c.Fits img y s) (hi : s.i = x)
    (hptr : s.pixelPtr = y * img.width + x) (hx : 3 ≤ x) (hw : (x : ℤ) < img.width - 7)
    (hcorners : s.corners + 3 ≤ x) :
    ∃ s', scanGroup c s = some s' ∧
      (s'.i = img.nextGroup c.threshold y x ∧
        s'.pixelPtr = y * img.width + img.nextGroup c.threshold y x) ∧
      Covers img c y x (img.nextGroup c.threshold y x) (x + 4) s s' := by
  have hscores := hfits.scores
  have hclear : s.scores.writeList (c.currentRowScores + x) [0, 0, 0, 0]
      = some (s.scores.setList (c.currentRowScores + x) [0, 0, 0, 0]) :=
    Buffer.writeList_eq_some (by have := hfits.scores_nonneg; omega) (by simp; omega)
  have hcov := Covers.clear img y (s := s) (x := x) hfits.scores_nonneg (by omega) rfl
  have htest := testGroup_spec img c.threshold (x := x) (by omega) (by omega) hfits.row
  simp only [scanGroup, hfits.image, hfits.width, hi, hptr, hclear, htest, Option.bind_eq_bind,
    Option.bind_some]
  cases hback : img.groupBack c.threshold x y with
  | some back =>
    -- what the group moves past has no corner, so its cleared scores stay
    obtain ⟨hb, hnone⟩ := Raster.groupBack_spec hback
    have hnext : img.nextGroup c.threshold y x = x + 4 - back.toNat := by
      rw [Raster.nextGroup, hback, Option.getD_some]
    refine ⟨_, rfl, ⟨?_, ?_⟩, ?_⟩
    · simp only [RowScan.advance]
      omega
    · simp only [RowScan.advance]
      omega
    · rw [hnext]
      refine { hcov.skip (x + 4 - back.toNat) (by omega) (by omega) fun k hk hk' => ?_ with }
      have h := cornerScore_of_not_segmentTest (hnone (k - x) (by omega))
      rwa [show (x : ℤ) + (k - x : ℕ) = k by omega] at h
  | none =>
    have hnext : img.nextGroup c.threshold y x = x + 4 := by
      rw [Raster.nextGroup, hback]
      rfl
    obtain ⟨s', hs', ⟨hi', hptr'⟩, hcovers⟩ := evaluateLanes_spec (x := x)
      (hfits.of_covers hcov) hi hptr hx (by omega) (by simp only; omega)
    have hall := hcov.trans hcovers le_rfl (by omega)
    simp only [hi, hptr] at hs' hi' hptr'
    refine ⟨s', hs', ⟨by omega, by omega⟩, ?_⟩
    rw [hnext]
    simpa using hall

/-- The loop over groups, from a column on. -/
lemma scanRow_spec (fuel : ℕ) (hfits : c.Fits img y s) (hi : s.i = x)
    (hptr : s.pixelPtr = y * img.width + x) (hx : 3 ≤ x)
    (hfuel : (img.width : ℤ) - 7 - x ≤ fuel) (hcorners : s.corners + 3 ≤ x) :
    ∃ s', scanRow c fuel s = some s' ∧ s'.i = img.scanEnd c.threshold y fuel x ∧
      Covers img c y x (img.scanEnd c.threshold y fuel x) (img.scanCleared c.threshold y fuel x)
        s s' := by
  induction fuel generalizing s x with
  | zero =>
    have hdone : ¬ s.i < c.width - 7 := by
      rw [hi, hfits.width]
      omega
    exact ⟨s, by rw [scanRow, if_neg hdone], hi, Covers.refl s⟩
  | succ fuel ih =>
    rw [scanRow, hi, hfits.width, Raster.scanEnd, Raster.scanCleared]
    split_ifs with hw
    · obtain ⟨s₁, h₁, ⟨hi₁, hptr₁⟩, hc₁⟩ := scanGroup_spec hfits hi hptr hx hw hcorners
      have hle₁ := hc₁.corners_le
      have hnext := img.nextGroup_bound c.threshold y x
      obtain ⟨s₂, h₂, hi₂, hc₂⟩ :=
        ih (hfits.of_covers hc₁) hi₁ hptr₁ (by omega) (by omega) (by omega)
      have hfuel' : (img.width : ℤ) - 7 - img.nextGroup c.threshold y x ≤ fuel := by omega
      have hend := img.scanEnd_bound c.threshold y hfuel'
      exact ⟨s₂, by simp only [h₁, h₂, Option.bind_eq_bind, Option.bind_some], hi₂,
        hc₁.trans hc₂ (by omega) hend.1.1⟩
    · exact ⟨s, rfl, hi, Covers.refl s⟩

end VioFrontend
