import VioFrontend.FeatureExtraction.Output

/-!
# Two runs of feature extraction

What changes in the output when the capacity or the threshold of a call does. The score of a
pixel does not depend on the threshold that it beats, so a larger threshold only turns the scores
below it to 0.
-/

namespace VioFrontend

/-! ### Two capacities -/

/-- A smaller keypoint buffer gets the first keypoints of those that a large one gets, and nothing
is written behind them. -/
theorem extractFeatures_truncates (img : Raster) (threshold : UInt8) (hw : img.width ≤ 32768)
    (outKeypoints outKeypoints' : ℕ → KeyPoint) (capacity unlimited : ℕ)
    (hunlimited : img.width * img.height ≤ unlimited) :
    ∃ out full,
      extractFeatures img.data img.width img.height threshold outKeypoints capacity = some out ∧
      extractFeatures img.data img.width img.height threshold outKeypoints' unlimited = some full ∧
      full.outOfSpace = false ∧
      out.size = min capacity full.size ∧
      (∀ i < out.size, out.keypoints i = full.keypoints i) ∧
      (∀ i, out.size ≤ i → out.keypoints i = outKeypoints i) ∧
      (out.outOfSpace = true ↔ capacity < full.size) := by
  have hlen : (img.reported threshold).length ≤ unlimited := length_reported_le.trans hunlimited
  refine ⟨_, _, extractFeatures_spec hw outKeypoints capacity,
    extractFeatures_spec hw outKeypoints' unlimited, decide_eq_false (not_lt.mpr hlen), ?_, ?_, ?_,
    ?_⟩
  · simp only [min_eq_right hlen]
  · intro i hi
    obtain ⟨hcap, hi'⟩ := lt_min_iff.mp hi
    simp only [getD_take hcap hi', getD_take (hi'.trans_le hlen) hi']
  · intro i hi
    have hnone : ((img.reported threshold).take capacity)[i]? = none :=
      List.getElem?_eq_none (by rwa [List.length_take])
    simp only [hnone, Option.getD_none]
  · simp only [decide_eq_true_eq, min_eq_right hlen]

theorem extractFeatures_brightDot_truncates :
    ∃ out, extractFeatures brightDot.data brightDot.width brightDot.height 10 noKeypoints 0
        = some out ∧ out.size = 0 ∧ out.keypoints 0 = ⟨⟨0, 0⟩, true⟩ := by
  obtain ⟨out, full, hout, -, -, hsize, -, hframe, -⟩ := extractFeatures_truncates brightDot 10
    (by decide) noKeypoints noKeypoints 0 180 (by decide)
  rw [Nat.zero_min] at hsize
  exact ⟨out, hout, hsize, hframe 0 hsize.le⟩

/-! ### Two thresholds -/

section

variable {img : Raster} {t₁ t₂ : UInt8}

/-- A larger threshold keeps the scores that reach it. -/
lemma score_of_le (h : t₁ ≤ t₂) (x y : ℤ) :
    img.score t₂ x y = if t₂.toNat ≤ img.score t₁ x y then img.score t₁ x y else 0 := by
  have hle : t₁.toNat ≤ t₂.toNat := UInt8.le_iff_toNat_le.mp h
  simp only [Raster.score, Raster.cornerScore]
  split_ifs <;> omega

/-- Local maxima at a larger threshold are the local maxima whose score reaches it. -/
lemma isLocalMaximum_of_le (h : t₁ ≤ t₂) (x y : ℤ) :
    img.IsLocalMaximum t₂ x y ↔
      img.IsLocalMaximum t₁ x y ∧ t₂.toNat ≤ img.score t₁ x y := by
  simp only [Raster.IsLocalMaximum, score_of_le h]
  constructor
  · rintro ⟨hpos, hmax⟩
    have hreach : (t₂.toNat : ℤ) ≤ img.score t₁ x y := by
      by_contra hlow
      rw [if_neg hlow] at hpos
      exact lt_irrefl _ hpos
    rw [if_pos hreach] at hpos hmax
    refine ⟨⟨hpos, fun dx dy hdx hdy hne => ?_⟩, hreach⟩
    have hlt := hmax dx dy hdx hdy hne
    split_ifs at hlt with hneighbour
    · exact hlt
    · exact lt_of_lt_of_le (not_le.mp hneighbour) hreach
  · rintro ⟨⟨hpos, hmax⟩, hreach⟩
    rw [if_pos hreach]
    refine ⟨hpos, fun dx dy hdx hdy hne => ?_⟩
    split_ifs
    · exact hmax dx dy hdx hdy hne
    · exact hpos

end

/-- Away from the right and the lower margin, the keypoints at a larger threshold are those
keypoints at a smaller one whose score reaches it. -/
theorem extractFeatures_nested (img : Raster) (t₁ t₂ : UInt8) (ht : t₁ ≤ t₂)
    (hw : img.width ≤ 32768) (outKeypoints₁ outKeypoints₂ : ℕ → KeyPoint)
    (capacity₁ capacity₂ : ℕ) :
    ∃ out₁ out₂,
      extractFeatures img.data img.width img.height t₁ outKeypoints₁ capacity₁ = some out₁ ∧
      extractFeatures img.data img.width img.height t₂ outKeypoints₂ capacity₂ = some out₂ ∧
      (img.width * img.height ≤ capacity₁ → out₁.outOfSpace = false) ∧
      (img.width * img.height ≤ capacity₂ → out₂.outOfSpace = false) ∧
      (out₁.outOfSpace = false → out₂.outOfSpace = false → ∀ x y : ℕ,
        (3 ≤ x ∧ x + 9 ≤ img.width) → (3 ≤ y ∧ y + 5 ≤ img.height) →
        (out₂.Reports x y ↔ out₁.Reports x y ∧ t₂.toNat ≤ img.score t₁ x y)) := by
  obtain ⟨out₁, hout₁, hcapacity₁, hreports₁⟩ :=
    exists_extractFeatures img t₁ hw outKeypoints₁ capacity₁
  obtain ⟨out₂, hout₂, hcapacity₂, hreports₂⟩ :=
    exists_extractFeatures img t₂ hw outKeypoints₂ capacity₂
  refine ⟨out₁, out₂, hout₁, hout₂, hcapacity₁, hcapacity₂, fun hspace₁ hspace₂ x y hx hy => ?_⟩
  rw [hreports₁ hspace₁, hreports₂ hspace₂, mem_reported_iff hx hy, mem_reported_iff hx hy]
  exact isLocalMaximum_of_le ht x y

theorem extractFeatures_brightDot_nested :
    ∃ out₁ out₂,
      extractFeatures brightDot.data brightDot.width brightDot.height 10 noKeypoints 180
        = some out₁ ∧
      extractFeatures brightDot.data brightDot.width brightDot.height 20 noKeypoints 180
        = some out₂ ∧
      (out₂.Reports 5 5 ↔ out₁.Reports 5 5 ∧ 20 ≤ brightDot.score 10 5 5) := by
  obtain ⟨out₁, out₂, hout₁, hout₂, hcapacity₁, hcapacity₂, hnested⟩ := extractFeatures_nested
    brightDot 10 20 (by decide) (by decide) noKeypoints noKeypoints 180 180
  exact ⟨out₁, out₂, hout₁, hout₂, hnested (hcapacity₁ (by decide)) (hcapacity₂ (by decide)) 5 5
    (by decide) (by decide)⟩

end VioFrontend
