import VioFrontend.FeatureExtraction.SegmentTest

/-!
# The packed prefilter

The two diagonal tests on groups of four pixels. A lane whose mask byte is 0 has both ends of a
diagonal inside the threshold range, and such a pixel fails the segment test; so whatever the scan
steps over without evaluating it has score 0.
-/

namespace VioFrontend

open Checked CircularArc PackedBytes

/-- The four pixels from `(x, y)` as a word. -/
def Raster.word (img : Raster) (x y : ℤ) : BitVec 32 := pack fun k => img.pixel (x + k) y

@[simp] lemma lane_word (img : Raster) (x y : ℤ) {k : ℕ} (hk : k < 4) :
    lane (img.word x y) k = img.pixel (x + k) y := lane_pack _ hk

/-- Pattern point `k` of the four pixels from `(x, y)` as a word. -/
def Raster.circleWord (img : Raster) (x y : ℤ) (k : ℕ) : BitVec 32 :=
  pack fun j => img.circle (x + j) y k

@[simp] lemma lane_circleWord (img : Raster) (x y : ℤ) (k : ℕ) {j : ℕ} (hj : j < 4) :
    lane (img.circleWord x y k) j = img.circle (x + j) y k := lane_pack _ hj

lemma loadWord_data (img : Raster) (x y : ℤ) (hx : 0 ≤ x) (hxw : x + 3 < img.width)
    (hy : 0 ≤ y ∧ y < img.height) :
    loadWord img.data (y * img.width + x) = some (img.word x y) := by
  have hb : collect (fun k : Fin 4 => img.data.read (y * img.width + x + k))
      = some fun k : Fin 4 => img.pixel (x + k) y := by
    refine collect_eq_some fun k => ?_
    rw [add_assoc]
    exact Raster.read_data ⟨⟨by omega, by omega⟩, hy⟩
  simp only [loadWord, hb, Option.bind_eq_bind, Option.bind_some]
  rfl

lemma loadWord_circle {img : Raster} {x y : ℤ} (k : Fin 25) (hx : 3 ≤ x)
    (hxw : x + 6 < img.width) (hy : 3 ≤ y ∧ y + 3 < img.height) :
    loadWord img.data (y * img.width + x + patternOffset img.width k)
      = some (img.circleWord x y k) := by
  have hb := circleOffset_bound k
  rw [address_circle, loadWord_data _ _ _ (by omega) (by omega) (by omega)]
  simp only [Raster.word, Raster.circleWord, Raster.circle, add_right_comm]

lemma lane_thresholdPacked (threshold : UInt8) {k : ℕ} (hk : k < 4) :
    lane (thresholdPacked threshold) k = threshold := by
  apply UInt8.toBitVec_inj.mp
  ext i hi
  have hlane : ∀ w : BitVec 32, (lane w k).toBitVec[i] = w.getLsbD (8 * k + i) := by
    intro w
    simp [lane]
  rw [hlane]
  simp only [thresholdPacked, BitVec.getLsbD_or, BitVec.getLsbD_shiftLeft,
    BitVec.getLsbD_setWidth]
  interval_cases k <;> interval_cases i <;> simp

/-! ### One diagonal test -/

/-- Value `p` is within the threshold range of the centre value `v`. -/
def WithinRange (threshold v p : UInt8) : Prop :=
  p.toNat ≤ v.toNat + threshold.toNat ∧ v.toNat ≤ p.toNat + threshold.toNat

lemma lane_combined_eq_zero {m : Masks} {k : ℕ} :
    lane m.combined k = 0 ↔ lane m.plus k = 0 ∧ lane m.minus k = 0 := by
  simp [Masks.combined]

/-- A comparison that selects 0 in a lane did not set the flag of that lane. -/
lemma lane_sel_usub8_eq_zero {a b : BitVec 32} {k : ℕ} (hk : k < 4) :
    lane (sel (usub8 a b) 0xFFFFFFFF 0x0) k = 0 ↔ (lane a k).toNat < (lane b k).toNat := by
  rw [lane_sel _ _ _ hk, lane_allOnes hk, lane_zero, usub8]
  by_cases h : lane b k ≤ lane a k
  · have h' : (lane b k).toNat ≤ (lane a k).toNat := UInt8.le_iff_toNat_le.mp h
    simp [h]
    omega
  · have h' : ¬ (lane b k).toNat ≤ (lane a k).toNat := fun h' => h (UInt8.le_iff_toNat_le.mpr h')
    simp [h]
    omega

/-- A mask byte 0 after a test says that both ends of the diagonal are within range, also when
a half of the test was skipped. -/
lemma withinRange_of_diagonalTest {threshold : UInt8} {pixels first second : BitVec 32}
    {old : Masks} {k : ℕ} (hk : k < 4)
    (h : lane (diagonalTest (uqadd8 pixels (thresholdPacked threshold))
      (uqsub8 pixels (thresholdPacked threshold)) first second old).combined k = 0) :
    WithinRange threshold (lane pixels k) (lane first k) ∧
      WithinRange threshold (lane pixels k) (lane second k) := by
  obtain ⟨hplus, hminus⟩ := lane_combined_eq_zero.mp h
  have hp := lane_uqadd8 pixels (thresholdPacked threshold) hk
  have hm := lane_uqsub8 pixels (thresholdPacked threshold) hk
  rw [lane_thresholdPacked threshold hk] at hp hm
  have hfirst := (lane first k).toNat_lt
  have hsecond := (lane second k).toNat_lt
  simp only [diagonalTest] at hplus hminus
  have habove : (lane first k).toNat ≤ (lane pixels k).toNat + threshold.toNat ∧
      (lane second k).toNat ≤ (lane pixels k).toNat + threshold.toNat := by
    split_ifs at hplus with hskip
    · rw [lane_or, UInt8.or_eq_zero_iff, lane_sel_usub8_eq_zero hk,
        lane_sel_usub8_eq_zero hk] at hplus
      omega
    · rw [lane_eq_of_not_lt hskip hk] at hp
      simp at hp
      omega
  have hbelow : (lane pixels k).toNat ≤ (lane first k).toNat + threshold.toNat ∧
      (lane pixels k).toNat ≤ (lane second k).toNat + threshold.toNat := by
    split_ifs at hminus with hskip
    · rw [lane_or, UInt8.or_eq_zero_iff, lane_sel_usub8_eq_zero hk,
        lane_sel_usub8_eq_zero hk] at hminus
      omega
    · rw [lane_eq_of_not_pos hskip k] at hm
      simp at hm
      omega
  exact ⟨⟨habove.1, hbelow.1⟩, habove.2, hbelow.2⟩

/-- A pixel with both ends of a diagonal within range fails the segment test. -/
lemma not_segmentTest_of_withinRange {img : Raster} {threshold : UInt8} {x y : ℤ} (k : ℕ)
    (hk : WithinRange threshold (img.pixel x y) (img.circle x y k))
    (hk8 : WithinRange threshold (img.pixel x y) (img.circle x y (k + 8))) :
    ¬ img.SegmentTest x y threshold.toNat := by
  have hper : Function.Periodic (img.contrast x y) (8 * 2) := fun k => by
    simp only [Raster.contrast, img.circle_periodic x y k]
  have hlen : 8 ≤ 9 := by decide
  rw [segmentTest_iff]
  intro hbest
  rcases lt_bestContrast.mp hbest with ⟨s, -, hs⟩ | ⟨s, -, hs⟩
  · have h := exists_opposite hper (by omega) hlen (P := fun c => (threshold.toNat : ℤ) < c) hs k
    simp only [Raster.contrast, WithinRange] at h hk hk8
    omega
  · have h := exists_opposite hper (by omega) hlen (P := fun c => (threshold.toNat : ℤ) < -c) hs k
    simp only [Raster.contrast, WithinRange] at h hk hk8
    omega

/-! ### Where the next group starts -/

/-- The group index moves back by at most 3, and every lane that the next group does not reach
has mask byte 0. -/
lemma stepBack_spec {mask : BitVec 32} {back : ℤ} (h : stepBack mask = some back) :
    (0 ≤ back ∧ back ≤ 3) ∧ ∀ k : ℕ, (k : ℤ) < 4 - back → lane mask k = 0 := by
  simp only [stepBack] at h
  split_ifs at h with h0 h3 h2 h1 <;> obtain rfl := Option.some.inj h
  · refine ⟨by omega, fun k hk => ?_⟩
    rw [h0, lane_zero]
  · refine ⟨by omega, fun k hk => ?_⟩
    obtain rfl : k = 0 := by omega
    rw [h3]
    decide
  · refine ⟨by omega, fun k hk => ?_⟩
    have hk2 : k < 2 := by omega
    rw [h2]
    interval_cases k <;> decide
  · refine ⟨by omega, fun k hk => ?_⟩
    have hk3 : k < 3 := by omega
    rw [h1]
    interval_cases k <;> decide

end VioFrontend
