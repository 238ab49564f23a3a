import VioFrontend.FeatureExtraction.Output

/-!
# The suppression of the last row

Row `height - 4` is the last one to be scanned. The iteration after it only suppresses that row: it
scans nothing and clears nothing, and compares with what row `height - 6` has left in the slot.
-/

namespace VioFrontend

namespace Raster

/-- The pixel of row `height - 4` is a corner, and its score is greater than those of its neighbours
in the two rows `height - 5` and `height - 4`. -/
def IsLastRowMaximum (img : Raster) (threshold : UInt8) (x : ℤ) : Prop :=
  0 < img.score threshold x (img.height - 4) ∧
    ∀ dx dy : ℤ, (-1 ≤ dx ∧ dx ≤ 1) → (-1 ≤ dy ∧ dy ≤ 0) → (dx, dy) ≠ (0, 0) →
      img.score threshold (x + dx) (img.height - 4 + dy) < img.score threshold x (img.height - 4)

/-- The three pixels two rows above have lower scores. -/
def BeatsTwoAbove (img : Raster) (threshold : UInt8) (x : ℤ) : Prop :=
  ∀ dx : ℤ, -1 ≤ dx ∧ dx ≤ 1 →
    img.score threshold (x + dx) (img.height - 6) < img.score threshold x (img.height - 4)

variable {img : Raster} {threshold : UInt8}

/-- The slot of the row that is not scanned holds the scores of the row three rows above. -/
lemma toNat_heldScore_flush {x y : ℕ} (hx : x + 8 ≤ img.width) (hy : 3 ≤ y)
    (hyh : y + 4 = img.height) :
    ((img.heldScore threshold (y + 1) x).toNat : ℤ) = img.score threshold x (y - 2) := by
  obtain ⟨r, rfl⟩ := Nat.exists_eq_add_of_le' (show 2 ≤ y by omega)
  have hskip : ¬ r + 3 + 3 < img.height := by omega
  rw [show r + 2 + 1 = r + 3 by omega, heldScore, if_neg hskip,
    show ((r + 2 : ℕ) : ℤ) - 2 = r by omega]
  by_cases hr : 2 ≤ r
  · exact toNat_heldScore hx (by omega)
  · obtain rfl : r = 1 := by omega
    exact (if_neg (by omega)).symm

lemma beatsNeighbours_lastRow_iff {x y : ℕ} (hx : 3 ≤ x ∧ x + 9 ≤ img.width) (hy : 3 ≤ y)
    (hyh : y + 4 = img.height) :
    img.BeatsNeighbours threshold y x ↔
      (∀ dx dy : ℤ, (-1 ≤ dx ∧ dx ≤ 1) → (-1 ≤ dy ∧ dy ≤ 0) → (dx, dy) ≠ (0, 0) →
        img.score threshold (x + dx) (y + dy) < img.score threshold x y) ∧
      ∀ dx : ℤ, -1 ≤ dx ∧ dx ≤ 1 →
        img.score threshold (x + dx) (y - 2) < img.score threshold x y := by
  -- what is compared with at row `r`
  have hheld : ∀ n ∈ neighbours y x, (img.heldScore threshold n.1 n.2 < img.heldScore threshold y x
      ↔ img.score threshold n.2 (if (n.1 : ℤ) ≤ y then n.1 else y - 2)
          < img.score threshold x y) := by
    intro n hn
    obtain ⟨⟨hdx, hdy⟩, -⟩ := (mem_neighbours (by omega) (by omega)).mp hn
    rw [UInt8.lt_iff_toNat_lt, ← Nat.cast_lt (α := ℤ),
      toNat_heldScore (x := x) (by omega) (by omega)]
    split_ifs with hrow
    · rw [toNat_heldScore (by omega) (by omega)]
    · have hbelow : n.1 = y + 1 := by omega
      rw [hbelow, toNat_heldScore_flush (by omega) hy hyh]
  have hall : img.BeatsNeighbours threshold y x ↔ ∀ dx dy : ℤ, (-1 ≤ dx ∧ dx ≤ 1) →
      (-1 ≤ dy ∧ dy ≤ 1) → (dx, dy) ≠ (0, 0) →
        img.score threshold (x + dx) (if y + dy ≤ (y : ℤ) then y + dy else y - 2)
          < img.score threshold x y := by
    rw [← forall_neighbours_iff (P := fun x' y' => img.score threshold x'
      (if y' ≤ (y : ℤ) then y' else y - 2) < img.score threshold x y) (by omega) (by omega)]
    exact forall₂_congr hheld
  rw [hall]
  constructor
  · intro h
    refine ⟨fun dx dy hdx hdy hne => ?_, fun dx hdx => ?_⟩
    · simpa [hdy.2] using h dx dy hdx (by omega) hne
    · simpa using h dx 1 hdx (by omega) (by simp)
  · rintro ⟨hupper, hlower⟩ dx dy hdx hdy hne
    split_ifs with hrow
    · exact hupper dx dy hdx (by omega) hne
    · exact hlower dx hdx

lemma mem_reported_lastRow_iff {x : ℕ} (hx : 3 ≤ x ∧ x + 9 ≤ img.width) (hh : 7 ≤ img.height) :
    keyPoint x (img.height - 4) ∈ img.reported threshold ↔
      img.IsLastRowMaximum threshold x ∧ img.BeatsTwoAbove threshold x := by
  have hrow : ((img.height - 4 : ℕ) : ℤ) = img.height - 4 := by omega
  have hend : x < img.rowEnd threshold (img.height - 4 : ℕ) := by
    have hb := img.rowEnd_bound threshold (img.height - 4 : ℕ)
    omega
  have htwo : ((img.height - 4 : ℕ) : ℤ) - 2 = img.height - 6 := by omega
  rw [keyPoint_mem_reported, mem_rowCorners_iff hx.1 (by omega),
    beatsNeighbours_lastRow_iff hx (by omega) (by omega), IsLastRowMaximum, BeatsTwoAbove, htwo,
    hrow, ← and_assoc]
  rw [hrow] at hend
  simp only [hend, true_and]

end Raster

/-- A pixel of the last row is reported as its two rows demand exactly when it is no maximum in them
or has a greater score than the three pixels two rows above. -/
theorem extractFeatures_lastRow (img : Raster) (threshold : UInt8) (hw : img.width ≤ 32768)
    (hh : 7 ≤ img.height) (outKeypoints : ℕ → KeyPoint) (capacity : ℕ) :
    ∃ out, extractFeatures img.data img.width img.height threshold outKeypoints capacity
        = some out ∧
      (img.width * img.height ≤ capacity → out.outOfSpace = false) ∧
      (out.outOfSpace = false → ∀ x : ℕ, 3 ≤ x → x + 9 ≤ img.width →
        ((out.Reports x (img.height - 4) ↔ img.IsLastRowMaximum threshold x) ↔
          (img.IsLastRowMaximum threshold x → img.BeatsTwoAbove threshold x))) := by
  obtain ⟨out, hout, hcapacity, hreports⟩ :=
    exists_extractFeatures img threshold hw outKeypoints capacity
  refine ⟨out, hout, hcapacity, fun hspace x hx hxw => ?_⟩
  rw [hreports hspace, Raster.mem_reported_lastRow_iff ⟨hx, hxw⟩ hh]
  exact and_iff_left_iff_imp

/-- A bright pixel in row `height - 6` and a darker one two rows below it. -/
def twoDots : Raster :=
  ⟨15, 11, fun x y => if x = 5 ∧ y = 5 then 255 else if x = 5 ∧ y = 7 then 200 else 0⟩

theorem extractFeatures_twoDots_lastRow :
    ∃ out, extractFeatures twoDots.data twoDots.width twoDots.height 10 noKeypoints 165 = some out ∧
      ((out.Reports 5 (twoDots.height - 4) ↔ twoDots.IsLastRowMaximum 10 (5 : ℕ)) ↔
        (twoDots.IsLastRowMaximum 10 (5 : ℕ) → twoDots.BeatsTwoAbove 10 (5 : ℕ))) := by
  obtain ⟨out, hout, hcapacity, hrow⟩ :=
    extractFeatures_lastRow twoDots 10 (by decide) (by decide) noKeypoints 165
  exact ⟨out, hout, hrow (hcapacity (by decide)) 5 (by decide) (by decide)⟩

/-- The darker one is a maximum of its two rows, and it is not reported. -/
theorem extractFeatures_lastRow_missed :
    ∃ out, extractFeatures twoDots.data twoDots.width twoDots.height 10 noKeypoints 165 = some out ∧
      out.outOfSpace = false ∧ twoDots.IsLastRowMaximum 10 (5 : ℕ) ∧
      ¬ out.Reports 5 (twoDots.height - 4) := by
  obtain ⟨out, hout, hcapacity, hreports⟩ :=
    exists_extractFeatures twoDots 10 (by decide) noKeypoints 165
  have hspace := hcapacity (by decide)
  refine ⟨out, hout, hspace, ⟨by decide +kernel, fun dx dy hdx hdy hne => ?_⟩, fun h => ?_⟩
  · obtain ⟨hdx1, hdx2⟩ := hdx
    obtain ⟨hdy1, hdy2⟩ := hdy
    interval_cases dx <;> interval_cases dy <;> first | exact absurd rfl hne | decide +kernel
  · rw [hreports hspace, Raster.mem_reported_lastRow_iff (by decide) (by decide)] at h
    have habove := h.2 0 (by decide)
    revert habove
    decide +kernel

end VioFrontend
