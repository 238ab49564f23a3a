import Mathlib.Tactic

/-!
# Ring buffers with a free-running index

The writer of a ring counts the elements it has put, in an index of `w` bits that wraps around, and
its reader counts those it has taken in an index of its own. An element is in the slot that the low
`k` bits of its number name. `Holds k content lo hi r` says that `hi` elements have been put into
`r` and that those from number `lo` on are still in their slots.
-/

structure RingBuffer (w : ℕ) (α : Type*) where
  idx : BitVec w
  slot : ℕ → α

namespace RingBuffer

variable {w k : ℕ} {α : Type*}

/-- The slot that an index names in a ring of `n` slots. -/
def slotOf (n : ℕ) (idx : BitVec w) : ℕ := (idx &&& BitVec.ofNat w (n - 1)).toNat

/-- Put an element into the slot that the index names. -/
def place (n : ℕ) (r : RingBuffer w α) (value : α) : RingBuffer w α :=
  { r with slot := Function.update r.slot (slotOf n r.idx) value }

/-- Make the placed element visible to the reader. -/
def publish (r : RingBuffer w α) : RingBuffer w α := { r with idx := r.idx + 1 }

/-- The element that a reader with the given index takes next. -/
def peek (n : ℕ) (r : RingBuffer w α) (idx : BitVec w) : α := r.slot (slotOf n idx)

/-! ### Indices that wrap around -/

lemma ofNat_add_one (a : ℕ) : BitVec.ofNat w a + 1 = BitVec.ofNat w (a + 1) := by
  rw [BitVec.ofNat_add]
  rfl

/-- Two indices are equal only if the counts are, unless these are `2 ^ w` apart. -/
lemma ofNat_eq_ofNat_iff {a b : ℕ} (hab : a ≤ b) (hlt : b - a < 2 ^ w) :
    BitVec.ofNat w a = BitVec.ofNat w b ↔ a = b := by
  constructor
  · intro h
    have hmod : a % 2 ^ w = b % 2 ^ w := by simpa using congrArg BitVec.toNat h
    have hdvd : (b - a) % 2 ^ w = 0 := Nat.sub_mod_eq_zero_of_mod_eq hmod.symm
    rw [Nat.mod_eq_of_lt hlt] at hdvd
    omega
  · rintro rfl
    rfl

@[simp] lemma slotOf_ofNat (hk : k ≤ w) (a : ℕ) :
    slotOf (2 ^ k) (BitVec.ofNat w a) = a % 2 ^ k := by
  have hlt : 2 ^ k - 1 < 2 ^ w :=
    lt_of_lt_of_le (Nat.sub_lt (Nat.two_pow_pos k) Nat.one_pos) (Nat.pow_le_pow_right (by omega) hk)
  rw [slotOf, BitVec.toNat_and, BitVec.toNat_ofNat, BitVec.toNat_ofNat, Nat.mod_eq_of_lt hlt,
    Nat.and_two_pow_sub_one_eq_mod, Nat.mod_mod_of_dvd _ (Nat.pow_dvd_pow 2 hk)]

/-- Numbers less than `n` apart have slots of their own. -/
lemma eq_of_mod_eq {n a b : ℕ} (hab : a ≤ b) (hlt : b - a < n) (h : a % n = b % n) : a = b := by
  have hdvd : (b - a) % n = 0 := Nat.sub_mod_eq_zero_of_mod_eq h.symm
  rw [Nat.mod_eq_of_lt hlt] at hdvd
  omega

/-! ### What a ring holds -/

structure Holds (k : ℕ) (content : ℕ → α) (lo hi : ℕ) (r : RingBuffer w α) : Prop where
  idx : r.idx = BitVec.ofNat w hi
  slot : ∀ j, lo ≤ j → j < hi → r.slot (j % 2 ^ k) = content j

namespace Holds

variable {content : ℕ → α} {lo hi : ℕ} {r : RingBuffer w α}

/-- The reader sees an empty ring exactly if it has taken all elements. -/
lemma idx_eq_iff (h : Holds k content lo hi r) (hle : lo ≤ hi) (hlt : hi - lo < 2 ^ w) :
    BitVec.ofNat w lo = r.idx ↔ lo = hi := by
  rw [h.idx, ofNat_eq_ofNat_iff hle hlt]

lemma peek (h : Holds k content lo hi r) (hk : k ≤ w) (hlt : lo < hi) :
    r.peek (2 ^ k) (BitVec.ofNat w lo) = content lo := by
  rw [RingBuffer.peek, slotOf_ofNat hk, h.slot lo le_rfl hlt]

/-- The reader is done with the elements below `lo'`. -/
lemma advance (h : Holds k content lo hi r) {lo' : ℕ} (hle : lo ≤ lo') :
    Holds k content lo' hi r :=
  ⟨h.idx, fun j hj hlt => h.slot j (hle.trans hj) hlt⟩

/-- A placed element overwrites nothing while there is a free slot. -/
lemma place (h : Holds k content lo hi r) (hk : k ≤ w) (hfree : hi - lo < 2 ^ k) (value : α) :
    Holds k content lo hi (r.place (2 ^ k) value) := by
  refine ⟨h.idx, fun j hj hlt => ?_⟩
  have hne : j % 2 ^ k ≠ slotOf (2 ^ k) r.idx := by
    rw [h.idx, slotOf_ofNat hk]
    intro heq
    have := eq_of_mod_eq hlt.le (by omega) heq
    omega
  exact (Function.update_of_ne hne _ _).trans (h.slot j hj hlt)

lemma slot_place (h : Holds k content lo hi r) (hk : k ≤ w) (value : α) :
    (r.place (2 ^ k) value).slot (hi % 2 ^ k) = value := by
  simp only [RingBuffer.place, h.idx, slotOf_ofNat hk, Function.update_self]

lemma publish (h : Holds k content lo hi r) (hslot : r.slot (hi % 2 ^ k) = content hi) :
    Holds k content lo (hi + 1) r.publish := by
  refine ⟨by rw [RingBuffer.publish, h.idx, ofNat_add_one], fun j hj hlt => ?_⟩
  rcases Nat.lt_succ_iff_lt_or_eq.mp hlt with hlt | rfl
  · exact h.slot j hj hlt
  · exact hslot

end Holds

end RingBuffer
