import VioFrontend.Library.CircularArc
import VioFrontend.FeatureExtraction.Basic

/-!
# The corner score is the best arc contrast

The plain definition of the FAST score of a pixel: the segment test asks for 9 consecutive
points of the 16 point circle that are all darker than the centre by more than the threshold or
all brighter, and the score is one less than the largest threshold beaten by some arc. The two
score loops and the candidate evaluation compute exactly this.
-/

namespace VioFrontend

open Checked CircularArc

/-! ### The circle around a pixel -/

/-- The displacement of pattern point `k` from the centre. -/
def circleOffset (k : ℕ) : ℤ × ℤ :=
  [(0, 3), (1, 3), (2, 2), (3, 1), (3, 0), (3, -1), (2, -2), (1, -3), (0, -3), (-1, -3),
    (-2, -2), (-3, -1), (-3, 0), (-3, 1), (-2, 2), (-1, 3)].getD (k % 16) (0, 0)

lemma circleOffset_periodic : Function.Periodic circleOffset 16 := by
  intro k
  simp [circleOffset]

lemma circleOffset_bound (k : ℕ) :
    (-3 ≤ (circleOffset k).1 ∧ (circleOffset k).1 ≤ 3) ∧
      (-3 ≤ (circleOffset k).2 ∧ (circleOffset k).2 ≤ 3) := by
  rw [← circleOffset_periodic.map_mod_nat]
  have hk : k % 16 < 16 := Nat.mod_lt _ (by omega)
  generalize k % 16 = m at hk
  interval_cases m <;> decide

lemma patternOffset_eq (width : ℤ) (k : Fin 25) :
    patternOffset width k = (circleOffset k).2 * width + (circleOffset k).1 := by
  fin_cases k <;> simp [patternOffset, circleOffset] <;> ring

/-- The address of a pattern point in the image data. -/
lemma address_circle (width x y : ℤ) (k : Fin 25) :
    y * width + x + patternOffset width k
      = (y + (circleOffset k).2) * width + (x + (circleOffset k).1) := by
  rw [patternOffset_eq]
  ring

/-- Pattern point `k` of the pixel `(x, y)`. -/
def Raster.circle (img : Raster) (x y : ℤ) (k : ℕ) : UInt8 :=
  img.pixel (x + (circleOffset k).1) (y + (circleOffset k).2)

lemma Raster.circle_periodic (img : Raster) (x y : ℤ) :
    Function.Periodic (img.circle x y) 16 := by
  intro k
  simp only [Raster.circle, circleOffset_periodic k]

/-- By how much the centre exceeds pattern point `k`. -/
def Raster.contrast (img : Raster) (x y : ℤ) (k : ℕ) : ℤ :=
  (img.pixel x y).toNat - (img.circle x y k).toNat

/-- The contrast of the arc of 9 points from `k`: of its darker or of its brighter side. -/
def arcContrast (d : ℕ → ℤ) (k : ℕ) : ℤ :=
  max (arcMin 9 d k) (arcMin 9 (fun i => -d i) k)

/-- The largest contrast of the 16 arcs. -/
def bestContrast (d : ℕ → ℤ) : ℤ := best 16 (arcContrast d)

/-- The score of a pixel at a threshold: 0 unless some arc beats the threshold. -/
def Raster.cornerScore (img : Raster) (threshold : UInt8) (x y : ℤ) : ℤ :=
  if bestContrast (img.contrast x y) > threshold.toNat then
    bestContrast (img.contrast x y) - 1
  else 0

/-- The best contrast beats `c` iff some arc does on one side. -/
lemma lt_bestContrast_iff_arc {d : ℕ → ℤ} {c : ℤ} :
    c < bestContrast d ↔
      ∃ k < 16, (∀ i < 9, c < d (k + i)) ∨ ∀ i < 9, c < -d (k + i) := by
  simp only [bestContrast, arcContrast, lt_best, lt_max_iff, lt_arcMin]

lemma lt_bestContrast {d : ℕ → ℤ} {c : ℤ} :
    c < bestContrast d ↔
      (∃ k < 16, ∀ i < 9, c < d (k + i)) ∨ (∃ k < 16, ∀ i < 9, c < -d (k + i)) := by
  rw [lt_bestContrast_iff_arc]
  constructor
  · rintro ⟨k, hk, h | h⟩
    · exact Or.inl ⟨k, hk, h⟩
    · exact Or.inr ⟨k, hk, h⟩
  · rintro (⟨k, hk, h⟩ | ⟨k, hk, h⟩)
    · exact ⟨k, hk, Or.inl h⟩
    · exact ⟨k, hk, Or.inr h⟩

lemma Raster.contrast_le (img : Raster) (x y : ℤ) (k : ℕ) :
    img.contrast x y k ≤ 255 ∧ -img.contrast x y k ≤ 255 := by
  have hv := (img.pixel x y).toNat_lt
  have hp := (img.circle x y k).toNat_lt
  simp only [Raster.contrast]
  omega

lemma Raster.bestContrast_le (img : Raster) (x y : ℤ) : bestContrast (img.contrast x y) ≤ 255 := by
  by_contra h
  rcases lt_bestContrast.mp (not_le.mp h) with ⟨k, -, hk⟩ | ⟨k, -, hk⟩
  · have h0 := hk 0 (by omega)
    have := (img.contrast_le x y (k + 0)).1
    omega
  · have h0 := hk 0 (by omega)
    have := (img.contrast_le x y (k + 0)).2
    omega

/-- A score fits into a byte. -/
lemma Raster.cornerScore_bound (img : Raster) (threshold : UInt8) (x y : ℤ) :
    0 ≤ img.cornerScore threshold x y ∧ img.cornerScore threshold x y ≤ 254 := by
  have h := img.bestContrast_le x y
  rw [Raster.cornerScore]
  split_ifs <;> omega

lemma Raster.toNat_cornerScore (img : Raster) (threshold : UInt8) (x y : ℤ) :
    ((UInt8.ofInt (img.cornerScore threshold x y)).toNat : ℤ) = img.cornerScore threshold x y := by
  have h := img.cornerScore_bound threshold x y
  rw [UInt8.ofInt, UInt8.toNat_ofNat_of_lt' (by simp only [UInt8.size]; omega)]
  omega

/-! ### The two score loops -/

/-- The ten entries of an iteration cover two arcs that share the eight in the middle. -/
lemma forall_two_arcs {P : ℤ → Prop} {D : ℕ → ℤ} {k : ℕ} :
    ((∀ i < 9, P (D (k + i))) ∨ ∀ i < 9, P (D (k + 1 + i))) ↔
      (P (D (k + 1)) ∧ P (D (k + 2)) ∧ P (D (k + 3)) ∧ P (D (k + 4)) ∧ P (D (k + 5)) ∧
        P (D (k + 6)) ∧ P (D (k + 7)) ∧ P (D (k + 8))) ∧ (P (D k) ∨ P (D (k + 9))) := by
  have h9 : ∀ Q : ℕ → Prop, (∀ i < 9, Q i) ↔
      Q 0 ∧ Q 1 ∧ Q 2 ∧ Q 3 ∧ Q 4 ∧ Q 5 ∧ Q 6 ∧ Q 7 ∧ Q 8 := by
    intro Q
    constructor
    · intro h
      exact ⟨h 0 (by omega), h 1 (by omega), h 2 (by omega), h 3 (by omega), h 4 (by omega),
        h 5 (by omega), h 6 (by omega), h 7 (by omega), h 8 (by omega)⟩
    · rintro ⟨h0, h1, h2, h3, h4, h5, h6, h7, h8⟩ i hi
      interval_cases i <;> assumption
  rw [h9, h9]
  simp only [Nat.add_assoc, Nat.add_zero, Nat.reduceAdd]
  tauto

section Passes

variable {D : ℕ → ℤ} {d : Fin 25 → ℤ} (hd : ∀ k : Fin 25, d k = D k)

include hd

/-- One iteration covers the arcs from `2 * m` and from `2 * m + 1`; its early exit is taken
only when neither can exceed `a0`. -/
lemma lt_darkPass {a0 c : ℤ} {m : Fin 8} :
    c < darkPass d a0 m ↔
      c < a0 ∨ (∀ i < 9, c < D (2 * m + i)) ∨ (∀ i < 9, c < D (2 * m + 1 + i)) := by
  rw [forall_two_arcs (P := fun x => c < x)]
  simp only [darkPass, entry, hd]
  split_ifs with hexit
  · constructor
    · exact Or.inl
    · rintro (h | ⟨⟨h1, h2, h3, -⟩, -⟩)
      · exact h
      · exact lt_of_lt_of_le (lt_min (lt_min h1 h2) h3) hexit
  · simp only [lt_max_iff, lt_min_iff]
    tauto

/-- The same for the bright arcs, with the order reversed. -/
lemma brightPass_lt {b0 c : ℤ} {m : Fin 8} :
    brightPass d b0 m < c ↔
      b0 < c ∨ (∀ i < 9, D (2 * m + i) < c) ∨ (∀ i < 9, D (2 * m + 1 + i) < c) := by
  rw [forall_two_arcs (P := fun x => x < c)]
  simp only [brightPass, entry, hd]
  split_ifs with hexit
  · constructor
    · exact Or.inl
    · rintro (h | ⟨⟨h1, h2, h3, h4, h5, -⟩, -⟩)
      · exact h
      · exact lt_of_le_of_lt hexit (max_lt (max_lt (max_lt (max_lt h1 h2) h3) h4) h5)
  · simp only [min_lt_iff, max_lt_iff]
    tauto

end Passes

/-- The starting positions `2 * m` and `2 * m + 1` are all 16. -/
lemma exists_pass_iff {P : ℕ → Prop} :
    (∃ m : Fin 8, P (2 * m) ∨ P (2 * m + 1)) ↔ ∃ k < 16, P k := by
  constructor
  · rintro ⟨m, h | h⟩
    · exact ⟨2 * m, by omega, h⟩
    · exact ⟨2 * m + 1, by omega, h⟩
  · rintro ⟨k, hk, h⟩
    refine ⟨⟨k / 2, by omega⟩, ?_⟩
    rcases Nat.even_or_odd' k with ⟨c, rfl | rfl⟩
    · left; simpa using h
    · right
      have : (2 * c + 1) / 2 = c := by omega
      simpa [this] using h

lemma lt_foldl_darkPass {D : ℕ → ℤ} {d : Fin 25 → ℤ} (hd : ∀ k : Fin 25, d k = D k)
    (ms : List (Fin 8)) (a0 c : ℤ) :
    c < ms.foldl (darkPass d) a0 ↔
      c < a0 ∨ ∃ m ∈ ms, (∀ i < 9, c < D (2 * m + i)) ∨ (∀ i < 9, c < D (2 * m + 1 + i)) := by
  induction ms generalizing a0 with
  | nil => simp
  | cons m ms ih =>
    rw [List.foldl_cons, ih, lt_darkPass hd]
    simp only [List.mem_cons, exists_eq_or_imp, or_assoc]

lemma foldl_brightPass_lt {D : ℕ → ℤ} {d : Fin 25 → ℤ} (hd : ∀ k : Fin 25, d k = D k)
    (ms : List (Fin 8)) (b0 c : ℤ) :
    ms.foldl (brightPass d) b0 < c ↔
      b0 < c ∨ ∃ m ∈ ms, (∀ i < 9, D (2 * m + i) < c) ∨ (∀ i < 9, D (2 * m + 1 + i) < c) := by
  induction ms generalizing b0 with
  | nil => simp
  | cons m ms ih =>
    rw [List.foldl_cons, ih, brightPass_lt hd]
    simp only [List.mem_cons, exists_eq_or_imp, or_assoc]

/-- Both loops together: the result is the starting threshold or the best contrast. -/
lemma scoreLoops_eq {D : ℕ → ℤ} {d : Fin 25 → ℤ} (hd : ∀ k : Fin 25, d k = D k)
    (threshold : ℤ) :
    -(List.finRange 8).foldl (brightPass d) (-(List.finRange 8).foldl (darkPass d) threshold)
      = max threshold (bestContrast D) := by
  apply eq_of_forall_lt_iff
  intro c
  rw [lt_neg, foldl_brightPass_lt hd, neg_lt_neg_iff, lt_foldl_darkPass hd, lt_max_iff,
    lt_bestContrast, or_assoc]
  simp only [List.mem_finRange, true_and]
  rw [exists_pass_iff (P := fun k => ∀ i < 9, c < D (k + i)),
    exists_pass_iff (P := fun k => ∀ i < 9, D (k + i) < -c)]
  simp only [lt_neg]

end VioFrontend
