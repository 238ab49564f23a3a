import Mathlib.Tactic

/-!
# Four bytes in a word

Packed-byte arithmetic on 32-bit words, as the DSP extension of the ARM instruction set defines
it: a word holds four byte lanes, lane 0 the least significant, and `uqadd8`, `uqsub8`, `usub8`
and `sel` work on each lane separately. `usub8` is represented by the four GE flags that it
sets and `sel` reads.

Two words are equal iff their lanes are (`ext_lane`), so a statement about words is proved lane
by lane with the `lane_*` simp lemmas.
-/

namespace PackedBytes

/-- Lane `k` of a word, `k < 4`. -/
def lane (w : BitVec 32) (k : ℕ) : UInt8 := ⟨w.extractLsb' (8 * k) 8⟩

/-- The word with the given lanes. -/
def pack (b : ℕ → UInt8) : BitVec 32 :=
  (b 3).toBitVec ++ (b 2).toBitVec ++ (b 1).toBitVec ++ (b 0).toBitVec

/-- Saturating lanewise addition. -/
def uqadd8 (a b : BitVec 32) : BitVec 32 :=
  pack fun k => UInt8.ofNat (min 255 ((lane a k).toNat + (lane b k).toNat))

/-- Lanewise subtraction that stops at zero. -/
def uqsub8 (a b : BitVec 32) : BitVec 32 :=
  pack fun k => UInt8.ofNat ((lane a k).toNat - (lane b k).toNat)

/-- The GE flags after the lanewise subtraction `a - b`: set where there is no borrow. -/
def usub8 (a b : BitVec 32) (k : ℕ) : Bool := decide (lane b k ≤ lane a k)

/-- Choose each lane of `a` or `b` by its GE flag. -/
def sel (ge : ℕ → Bool) (a b : BitVec 32) : BitVec 32 :=
  pack fun k => if ge k then lane a k else lane b k

@[simp] lemma lane_pack (b : ℕ → UInt8) {k : ℕ} (hk : k < 4) : lane (pack b) k = b k := by
  apply UInt8.toBitVec_inj.mp
  simp only [lane, pack]
  interval_cases k
  · rw [BitVec.extractLsb'_append_eq_of_add_le (by omega)]
    exact BitVec.extractLsb'_eq_self
  · rw [BitVec.extractLsb'_append_eq_of_le (by omega),
      BitVec.extractLsb'_append_eq_of_add_le (by omega)]
    exact BitVec.extractLsb'_eq_self
  · rw [BitVec.extractLsb'_append_eq_of_le (by omega),
      BitVec.extractLsb'_append_eq_of_le (by omega),
      BitVec.extractLsb'_append_eq_of_add_le (by omega)]
    exact BitVec.extractLsb'_eq_self
  · rw [BitVec.extractLsb'_append_eq_of_le (by omega),
      BitVec.extractLsb'_append_eq_of_le (by omega),
      BitVec.extractLsb'_append_eq_of_le (by omega)]
    exact BitVec.extractLsb'_eq_self

lemma ext_lane {a b : BitVec 32} (h : ∀ k < 4, lane a k = lane b k) : a = b := by
  ext i hi
  have hk := congrArg UInt8.toBitVec (h (i / 8) (by omega))
  have hb := congrArg (fun x : BitVec 8 => x.getLsbD (i % 8)) hk
  have hi' : 8 * (i / 8) + i % 8 = i := Nat.div_add_mod i 8
  simpa [lane, BitVec.getLsbD_extractLsb', Nat.mod_lt, hi', BitVec.getLsbD_eq_getElem, hi] using hb

@[simp] lemma lane_or (a b : BitVec 32) (k : ℕ) : lane (a ||| b) k = lane a k ||| lane b k := by
  apply UInt8.toBitVec_inj.mp
  simp [lane, BitVec.extractLsb'_or]

@[simp] lemma lane_uqadd8 (a b : BitVec 32) {k : ℕ} (hk : k < 4) :
    (lane (uqadd8 a b) k).toNat = min 255 ((lane a k).toNat + (lane b k).toNat) := by
  rw [uqadd8, lane_pack _ hk, UInt8.toNat_ofNat_of_lt']
  simp only [UInt8.size]
  omega

@[simp] lemma lane_uqsub8 (a b : BitVec 32) {k : ℕ} (hk : k < 4) :
    (lane (uqsub8 a b) k).toNat = (lane a k).toNat - (lane b k).toNat := by
  rw [uqsub8, lane_pack _ hk, UInt8.toNat_ofNat_of_lt']
  have := (lane a k).toNat_lt
  simp only [UInt8.size]
  omega

@[simp] lemma lane_sel (ge : ℕ → Bool) (a b : BitVec 32) {k : ℕ} (hk : k < 4) :
    lane (sel ge a b) k = if ge k then lane a k else lane b k := by
  rw [sel, lane_pack _ hk]

/-! ### Comparisons with the all-ones and the all-zeros word -/

@[simp] lemma lane_zero (k : ℕ) : lane 0x0 k = 0 := by
  apply UInt8.toBitVec_inj.mp
  simp [lane]

lemma lane_allOnes {k : ℕ} (hk : k < 4) : lane 0xFFFFFFFF k = 255 := by
  interval_cases k <;> decide

lemma lane_eq_of_not_lt {w : BitVec 32} (h : ¬ w < 0xFFFFFFFF) {k : ℕ} (hk : k < 4) :
    lane w k = 255 := by
  have hw : w = 0xFFFFFFFF := by bv_omega
  rw [hw, lane_allOnes hk]

lemma lane_eq_of_not_pos {w : BitVec 32} (h : ¬ w > 0x0) (k : ℕ) : lane w k = 0 := by
  have hw : w = 0x0 := by bv_omega
  rw [hw, lane_zero]

end PackedBytes
