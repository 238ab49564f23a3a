import VioFrontend.FeatureExtraction.CornerScore

/-!
# Evaluating a corner candidate

`evaluateCornerCandidate` computes the corner score of a pixel whose circle lies inside the
image: the eight diagonal tests reject only pixels without an arc, and the two counter loops
find an arc of their polarity when there is one.
-/

namespace VioFrontend

open Checked CircularArc

/-- The pixel and its whole circle lie inside the image. -/
def Raster.CircleInside (img : Raster) (x y : ℤ) : Prop :=
  (3 ≤ x ∧ x + 3 < img.width) ∧ (3 ≤ y ∧ y + 3 < img.height)

section Reads

variable {img : Raster} {x y : ℤ} (hin : img.CircleInside x y)

include hin

lemma read_centre : img.data.read (y * img.width + x) = some (img.pixel x y) := by
  obtain ⟨hx, hy⟩ := hin
  exact Raster.read_data ⟨⟨by omega, by omega⟩, by omega, by omega⟩

lemma read_circle (k : Fin 25) :
    img.data.read (y * img.width + x + patternOffset img.width k) = some (img.circle x y k) := by
  obtain ⟨hx, hy⟩ := hin
  have hb := circleOffset_bound k
  rw [address_circle]
  exact Raster.read_data ⟨⟨by omega, by omega⟩, by omega, by omega⟩

lemma calculateCornerScore_spec (threshold : ℤ) :
    calculateCornerScore img.data (y * img.width + x) (patternOffset img.width) threshold
      = some (max threshold (bestContrast (img.contrast x y)) - 1) := by
  have hd : collect (fun k => (img.data.read (y * img.width + x
      + patternOffset img.width k)).bind fun p => some (((img.pixel x y).toNat : ℤ) - p.toNat))
        = some fun k : Fin 25 => img.contrast x y k :=
    collect_eq_some fun k => by simp [read_circle hin k, Raster.contrast]
  simp only [calculateCornerScore, read_centre hin, Option.bind_eq_bind, Option.bind_some, hd]
  rw [scoreLoops_eq (D := img.contrast x y) fun _ => rfl]

/-! ### The counter loops -/

lemma consecutiveLoop_eq (inRange : UInt8 → Bool) (ks : List (Fin 25)) (count : ℕ) :
    consecutiveLoop img.data (y * img.width + x) (patternOffset img.width) inRange ks count
      = some (hasRun 9 (ks.map fun k : Fin 25 => inRange (img.circle x y k)) count) := by
  induction ks generalizing count with
  | nil => rfl
  | cons k ks ih =>
    simp only [consecutiveLoop, read_circle hin k, Option.bind_eq_bind, Option.bind_some,
      List.map_cons, hasRun, ih, consecutivePixelsInPattern]
    split_ifs <;> rfl

/-- The check of one polarity is made iff the mask has its flag, and finds the arcs there are. -/
lemma polarityCheck_spec (mask polarity : ℕ) (inRange : UInt8 → Bool) :
    ∃ found, polarityCheck img.data (y * img.width + x) (patternOffset img.width) mask polarity
        inRange = some found ∧
      (found = true ↔ mask &&& polarity ≠ 0 ∧
        ∃ k < 16, ∀ i < 9, inRange (img.circle x y (k + i)) = true) := by
  have hmap : (List.finRange 25).map (fun k : Fin 25 => inRange (img.circle x y k))
      = (List.range (16 + 9)).map fun k => inRange (img.circle x y k) := by
    rw [← List.map_coe_finRange_eq_range, List.map_map]
    rfl
  have hper : Function.Periodic (fun k => inRange (img.circle x y k)) 16 := fun k => by
    simp only [img.circle_periodic x y k]
  rw [polarityCheck]
  split_ifs with hmask
  · refine ⟨_, consecutiveLoop_eq hin inRange _ 0, ?_⟩
    rw [hmap, hasRun_unrolled hper (by omega) (by omega)]
    simp [hmask]
  · exact ⟨false, rfl, by simp [hmask]⟩

end Reads

/-! ### Masks of two flags -/

/-- The value of a mask by its below flag and its above flag. -/
def maskOf (below above : Bool) : ℕ := below.toNat + 2 * above.toNat

lemma maskOf_or (b a b' a' : Bool) : maskOf b a ||| maskOf b' a' = maskOf (b || b') (a || a') := by
  revert b a b' a'
  decide

lemma maskOf_and (b a b' a' : Bool) : maskOf b a &&& maskOf b' a' = maskOf (b && b') (a && a') := by
  revert b a b' a'
  decide

lemma maskOf_and_below (b a : Bool) : maskOf b a &&& belowThresholdRange ≠ 0 ↔ b = true := by
  revert b a
  decide

lemma maskOf_and_above (b a : Bool) : maskOf b a &&& aboveThresholdRange ≠ 0 ↔ a = true := by
  revert b a
  decide

lemma maskOf_eq_zero (b a : Bool) : maskOf b a = 0 ↔ b = false ∧ a = false := by
  revert b a
  decide

lemma thresholdClass_eq {threshold n : ℤ} (ht : 0 ≤ threshold) :
    thresholdClass threshold n = maskOf (n < -threshold) (threshold < n) := by
  rw [thresholdClass]
  split_ifs with h1 h2
  · have h2 : ¬ threshold < n := by omega
    simp [h1, h2, maskOf, belowThresholdRange]
  · have h2' : threshold < n := h2
    simp [h1, h2', maskOf, aboveThresholdRange]
  · have h2' : ¬ threshold < n := h2
    simp [h1, h2', maskOf, withinThresholdRange]

/-! ### The candidate evaluation -/

/-- What the lookup table answers for every difference of two pixel values. -/
def IsLookupTable (threshold : ℤ) (table : Buffer ℕ) : Prop :=
  ∀ n : ℤ, -255 ≤ n → n ≤ 255 → table.read (n + 255) = some (thresholdClass threshold n)

lemma thresholdLookupTable_spec (threshold : ℤ) :
    ∃ table, thresholdLookupTable threshold = some table ∧ IsLookupTable threshold table := by
  obtain ⟨table, htable, -, hread⟩ := Buffer.fill_spec (b := Buffer.blank 512)
    (f := fun i => thresholdClass threshold ((i : ℤ) - 255)) (n := 511) (by simp)
  refine ⟨table, htable, fun n hn hn' => ?_⟩
  have h := hread (n + 255).toNat (by omega)
  have hn : (((n + 255).toNat : ℕ) : ℤ) = n + 255 := Int.toNat_of_nonneg (by omega)
  rwa [hn, add_sub_cancel_right] at h

/-- Nine consecutive points of the circle differ by more than the threshold. -/
def HasArc (threshold : ℤ) (d : ℕ → ℤ) : Prop := ∃ k < 16, ∀ i < 9, threshold < d (k + i)

instance (threshold : ℤ) (d : ℕ → ℤ) : Decidable (HasArc threshold d) :=
  inferInstanceAs (Decidable (∃ k < 16, ∀ i < 9, threshold < d (k + i)))

section Evaluate

variable {img : Raster} {x y : ℤ} (hin : img.CircleInside x y) {threshold : UInt8}
  {table : Buffer ℕ} (htable : IsLookupTable threshold.toNat table)

include hin htable

lemma diagonalClass_eq (k l : Fin 25) :
    diagonalClass img.data (y * img.width + x) (img.pixel x y).toNat table
        (patternOffset img.width) k l
      = some (maskOf
          (threshold.toNat < img.contrast x y k || threshold.toNat < img.contrast x y l)
          (threshold.toNat < -img.contrast x y k || threshold.toNat < -img.contrast x y l)) := by
  have hclass : ∀ k : Fin 25,
      table.read (255 - (img.pixel x y).toNat + (img.circle x y k).toNat)
        = some (maskOf (threshold.toNat < img.contrast x y k)
            (threshold.toNat < -img.contrast x y k)) := by
    intro k
    have hv := (img.pixel x y).toNat_lt
    have hp := (img.circle x y k).toNat_lt
    have h := htable ((img.circle x y k).toNat - (img.pixel x y).toNat) (by omega) (by omega)
    rw [thresholdClass_eq (by omega)] at h
    rw [show 255 - ((img.pixel x y).toNat : ℤ) + (img.circle x y k).toNat
      = (img.circle x y k).toNat - (img.pixel x y).toNat + 255 by ring, h]
    congr 3 <;>
    · apply propext
      simp only [Raster.contrast]
      constructor <;> intro h <;> omega
  simp only [diagonalClass, read_circle hin, Option.bind_eq_bind, Option.bind_some, hclass,
    maskOf_or]

omit htable in
/-- The first loop is run when the mask has the below flag, and looks for a dark arc. -/
lemma darkCheck_eq (below above : Bool) :
    polarityCheck img.data (y * img.width + x) (patternOffset img.width) (maskOf below above)
        belowThresholdRange (fun p => (p.toNat : ℤ) < (img.pixel x y).toNat - threshold.toNat)
      = some (below && decide (HasArc threshold.toNat (img.contrast x y))) := by
  obtain ⟨dark, hdark, hiff⟩ := polarityCheck_spec hin (maskOf below above) belowThresholdRange
    (fun p => (p.toNat : ℤ) < (img.pixel x y).toNat - threshold.toNat)
  rw [hdark, Option.some.injEq, Bool.eq_iff_iff, hiff, maskOf_and_below, Bool.and_eq_true,
    decide_eq_true_eq, HasArc]
  simp only [decide_eq_true_eq, Raster.contrast, lt_sub_comm]

omit htable in
/-- The second loop is run when the mask has the above flag, and looks for a bright arc. -/
lemma brightCheck_eq (below above : Bool) :
    polarityCheck img.data (y * img.width + x) (patternOffset img.width) (maskOf below above)
        aboveThresholdRange (fun p => (p.toNat : ℤ) > (img.pixel x y).toNat + threshold.toNat)
      = some (above && decide (HasArc threshold.toNat fun k => -img.contrast x y k)) := by
  obtain ⟨bright, hbright, hiff⟩ := polarityCheck_spec hin (maskOf below above) aboveThresholdRange
    (fun p => (p.toNat : ℤ) > (img.pixel x y).toNat + threshold.toNat)
  rw [hbright, Option.some.injEq, Bool.eq_iff_iff, hiff, maskOf_and_above, Bool.and_eq_true,
    decide_eq_true_eq, HasArc]
  simp only [decide_eq_true_eq, Raster.contrast, neg_sub, gt_iff_lt, lt_sub_iff_add_lt']

/-- An arc of one polarity makes every diagonal test keep the flag of that polarity. -/
lemma exists_diagonalFlags :
    ∃ below above : Fin 25 → Fin 25 → Bool,
      (∀ k l, diagonalClass img.data (y * img.width + x) (img.pixel x y).toNat table
        (patternOffset img.width) k l = some (maskOf (below k l) (above k l))) ∧
      (HasArc threshold.toNat (img.contrast x y) →
        ∀ k l : Fin 25, (l : ℕ) = k + 8 → below k l = true) ∧
      (HasArc threshold.toNat (fun k => -img.contrast x y k) →
        ∀ k l : Fin 25, (l : ℕ) = k + 8 → above k l = true) := by
  have hper : Function.Periodic (img.contrast x y) (8 * 2) := fun k => by
    simp only [Raster.contrast, img.circle_periodic x y k]
  have hlen : 8 ≤ 9 := by decide
  refine ⟨_, _, diagonalClass_eq hin htable, ?_, ?_⟩
  · rintro ⟨s, -, hs⟩ k l hl
    have h := exists_opposite hper (by omega) hlen (P := fun c => (threshold.toNat : ℤ) < c) hs k
    simpa [hl] using h
  · rintro ⟨s, -, hs⟩ k l hl
    have h := exists_opposite hper (by omega) hlen (P := fun c => (threshold.toNat : ℤ) < -c) hs k
    simpa [hl] using h

/-- The optimised evaluation decides the segment test and returns the score of the pixel. -/
lemma evaluateCornerCandidate_spec :
    evaluateCornerCandidate img.data (y * img.width + x) threshold.toNat table
        (patternOffset img.width)
      = some (img.cornerScore threshold x y) := by
  obtain ⟨below, above, hdiag, hbelow, habove⟩ := exists_diagonalFlags hin htable
  simp only [evaluateCornerCandidate, read_centre hin, Option.bind_eq_bind, Option.bind_some,
    hdiag, maskOf_and, darkCheck_eq hin, brightCheck_eq hin, calculateCornerScore_spec hin]
  rw [Raster.cornerScore]
  by_cases hd : HasArc threshold.toNat (img.contrast x y)
  · have hb := hbelow hd
    have hbest := lt_bestContrast.mpr (Or.inl hd)
    simp [hb 0 8 rfl, hb 4 12 rfl, hb 2 10 rfl, hb 6 14 rfl, hb 1 9 rfl, hb 3 11 rfl,
      hb 5 13 rfl, hb 7 15 rfl, maskOf_eq_zero, hd, hbest, max_eq_right hbest.le]
  · by_cases hu : HasArc threshold.toNat fun k => -img.contrast x y k
    · have ha := habove hu
      have hbest := lt_bestContrast.mpr (Or.inr hu)
      simp [ha 0 8 rfl, ha 4 12 rfl, ha 2 10 rfl, ha 6 14 rfl, ha 1 9 rfl, ha 3 11 rfl,
        ha 5 13 rfl, ha 7 15 rfl, maskOf_eq_zero, hd, hu, hbest, max_eq_right hbest.le]
    · -- no arc: whichever test ends the evaluation, it returns 0
      have hbest : ¬ bestContrast (img.contrast x y) > threshold.toNat := fun h =>
        (lt_bestContrast.mp h).elim hd hu
      simp only [hd, hu, decide_false, Bool.and_false, Bool.false_eq_true, if_false, if_neg hbest,
        Option.pure_def, ite_self]

end Evaluate

end VioFrontend
