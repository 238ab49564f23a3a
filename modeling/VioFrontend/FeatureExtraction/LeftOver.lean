import VioFrontend.FeatureExtraction.Output

/-!
# Left-over scores

The scan of a row clears its ring slot up to the end of the last group that it visits, and where
that is depends on the pixels of the row. Behind it the slot keeps what was written for the row
three rows above, and the suppression takes that for scores of the row.
-/

namespace VioFrontend

namespace Raster

/-- The score that the scan of row `y` gives to a pixel: 0 where it records no corner. -/
def scannedScore (img : Raster) (threshold : UInt8) (y c : ℕ) : ℤ :=
  if c ∈ img.rowCorners threshold y then img.cornerScore threshold c y else 0

/-- The slot of a row still holds, in column `c`, the score `v` of a corner that lies a multiple of
three rows above it. -/
inductive LeftOver (img : Raster) (threshold : UInt8) (c : ℕ) (v : ℤ) : ℕ → Prop
  | corner {r : ℕ} : c ∈ img.rowCorners threshold r → img.cornerScore threshold c r = v →
      img.rowCleared threshold (r + 3 : ℕ) ≤ c → LeftOver img threshold c v (r + 3)
  | passed {r : ℕ} : LeftOver img threshold c v r → img.rowCleared threshold (r + 3 : ℕ) ≤ c →
      LeftOver img threshold c v (r + 3)

variable {img : Raster} {threshold : UInt8} {c r : ℕ} {v : ℤ}

lemma LeftOver.pos (h : LeftOver img threshold c v r) : 0 < v := by
  induction h with
  | @corner q hc hv _ =>
    have hs := img.cornerScore_bound threshold c q
    have hne := (rowCorners_bound hc).2.2.2
    omega
  | passed _ _ ih => exact ih

lemma LeftOver.rowCleared_le (h : LeftOver img threshold c v r) :
    img.rowCleared threshold r ≤ c := by
  cases h with
  | corner _ _ hcleared => exact hcleared
  | passed _ hcleared => exact hcleared

lemma LeftOver.not_mem_rowCorners (h : LeftOver img threshold c v r) :
    c ∉ img.rowCorners threshold r := by
  intro hc
  have hb := img.rowEnd_bound threshold r
  have hend := (rowCorners_bound hc).2.2.1
  have hcleared := h.rowCleared_le
  omega

lemma LeftOver.exists_corner (h : LeftOver img threshold c v r) :
    ∃ q, q + 3 ≤ r ∧ c ∈ img.rowCorners threshold q := by
  induction h with
  | @corner q hc _ _ => exact ⟨q, le_rfl, hc⟩
  | passed _ _ ih =>
    obtain ⟨q, hq, hc⟩ := ih
    exact ⟨q, by omega, hc⟩

/-- Only corners of row 3 can be left over in the rows above row 7. -/
lemma not_leftOver_of_rowCorners_three (h : img.rowCorners threshold 3 = []) (hr : r ≤ 6) :
    ¬ LeftOver img threshold c v r := by
  intro hleft
  obtain ⟨q, hq, hc⟩ := hleft.exists_corner
  obtain rfl : q = 3 := by
    have := (rowCorners_bound hc).2.1.1
    omega
  rw [h] at hc
  cases hc

/-- Behind the columns that it clears a row keeps what the slot held before. -/
lemma heldScore_of_rowCleared_le (hc : img.rowCleared threshold (r + 3 : ℕ) ≤ c) :
    img.heldScore threshold (r + 3) c = img.heldScore threshold r c := by
  have hb := img.rowEnd_bound threshold (r + 3 : ℕ)
  rw [heldScore]
  split_ifs
  · omega
  · omega
  · rfl
  · rfl

lemma toNat_heldScore_of_mem (hc : c ∈ img.rowCorners threshold r) :
    ((img.heldScore threshold r c).toNat : ℤ) = img.cornerScore threshold c r := by
  obtain ⟨hx, hy, hend, -⟩ := rowCorners_bound hc
  obtain ⟨q, rfl⟩ := Nat.exists_eq_add_of_le' hy.1
  rw [heldScore, if_pos hy.2, if_pos ⟨hx.1, hend⟩, toNat_cornerScore]

lemma LeftOver.toNat_heldScore (h : LeftOver img threshold c v r) :
    ((img.heldScore threshold r c).toNat : ℤ) = v := by
  induction h with
  | corner hc hv hcleared =>
    rw [heldScore_of_rowCleared_le hcleared, toNat_heldScore_of_mem hc, hv]
  | passed _ hcleared ih => rw [heldScore_of_rowCleared_le hcleared, ih]

lemma scannedScore_of_not_mem (hc : c ∉ img.rowCorners threshold r) :
    img.scannedScore threshold r c = 0 := if_neg hc

/-- A slot without a left-over score holds the score of the scan. -/
lemma toNat_heldScore_of_not_leftOver (hr : r + 3 < img.height)
    (h : ∀ v, ¬ LeftOver img threshold c v r) :
    ((img.heldScore threshold r c).toNat : ℤ) = img.scannedScore threshold r c := by
  by_cases hc : c ∈ img.rowCorners threshold r
  · rw [toNat_heldScore_of_mem hc, scannedScore, if_pos hc]
  rw [scannedScore_of_not_mem hc]
  induction r using Nat.strong_induction_on with
  | _ r ih =>
    match r with
    | 0 | 1 | 2 => rfl
    | q + 3 =>
      by_cases hcleared : img.rowCleared threshold (q + 3 : ℕ) ≤ c
      · rw [heldScore_of_rowCleared_le hcleared]
        have hq : c ∉ img.rowCorners threshold q := fun hq => h _ (.corner hq rfl hcleared)
        exact ih q (by omega) (by omega) (fun v hv => h v (.passed hv hcleared)) hq
      · rw [heldScore, if_pos hr]
        split_ifs with hexamined hinside
        · -- examined without a corner
          have hzero : img.cornerScore threshold c (q + 3 : ℕ) = 0 := by
            by_contra hne
            refine hc ?_
            rw [rowCorners, if_pos ⟨by omega, hr⟩, mem_cornersBetween]
            exact ⟨hexamined, hne⟩
          rw [toNat_cornerScore, hzero]
        · rfl
        · have hleft : c < 3 := by omega
          rw [heldScore_left _ hleft]
          rfl

end Raster

end VioFrontend
