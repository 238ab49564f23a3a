import VioFrontend.Library.Loops

/-!
# Checked arrays

A fixed-size array whose accesses are partial operations: reading or writing outside the
array fails, and so does reading a cell that was never written. A program over such arrays
that returns a value has made no bad access.

The partial write `Buffer.write` is the total update `Buffer.set` behind a bounds check, so a
proof first discharges the bounds and then reasons about `set` alone.
-/

namespace Checked

/-- A fixed-size array. A cell that was never written holds `none`. -/
structure Buffer (α : Type*) where
  size : ℕ
  cell : ℕ → Option α

namespace Buffer

variable {α : Type*}

/-- A freshly declared array. -/
def blank (size : ℕ) : Buffer α := ⟨size, fun _ => none⟩

/-- `i` is an index of the array. -/
def InBounds (b : Buffer α) (i : ℤ) : Prop := 0 ≤ i ∧ i < b.size

instance (b : Buffer α) (i : ℤ) : Decidable (b.InBounds i) :=
  inferInstanceAs (Decidable (_ ∧ _))

def read (b : Buffer α) (i : ℤ) : Option α :=
  if b.InBounds i then b.cell i.toNat else none

/-- The update of one cell, whatever the index. -/
def set (b : Buffer α) (i : ℤ) (v : α) : Buffer α :=
  ⟨b.size, Function.update b.cell i.toNat (some v)⟩

def write (b : Buffer α) (i : ℤ) (v : α) : Option (Buffer α) :=
  if b.InBounds i then some (b.set i v) else none

@[simp] lemma size_blank (n : ℕ) : (blank n : Buffer α).size = n := rfl

@[simp] lemma size_set (b : Buffer α) (i : ℤ) (v : α) : (b.set i v).size = b.size := rfl

@[simp] lemma inBounds_set (b : Buffer α) (i k : ℤ) (v : α) :
    (b.set i v).InBounds k ↔ b.InBounds k := Iff.rfl

lemma write_eq_some {b : Buffer α} {i : ℤ} (h : b.InBounds i) (v : α) :
    b.write i v = some (b.set i v) := if_pos h

lemma read_set_self {b : Buffer α} {i : ℤ} (h : b.InBounds i) (v : α) :
    (b.set i v).read i = some v := by
  rw [read, if_pos ((inBounds_set b i i v).mpr h)]
  simp [set]

lemma read_set_of_ne {b : Buffer α} {i k : ℤ} (hi : 0 ≤ i) (h : k ≠ i) (v : α) :
    (b.set i v).read k = b.read k := by
  simp only [read, inBounds_set]
  split_ifs with hk
  · have hne : k.toNat ≠ i.toNat := by have := hk.1; omega
    simp [set, Function.update_of_ne hne]
  · rfl

/-- A larger array with the values of this one, as `realloc` returns it. -/
def grow (b : Buffer α) (size : ℕ) : Buffer α := ⟨size, b.cell⟩

@[simp] lemma size_grow (b : Buffer α) (n : ℕ) : (b.grow n).size = n := rfl

lemma read_grow {b : Buffer α} {n : ℕ} {i : ℤ} (hi : b.InBounds i) (hn : b.size ≤ n) :
    (b.grow n).read i = b.read i := by
  rw [read, read, if_pos hi, if_pos ⟨hi.1, hi.2.trans_le (by exact_mod_cast hn)⟩]
  rfl

/-! ### The cells that a computation reads -/

/-- The array with one cell as if it was never written. -/
def erase (b : Buffer α) (i : ℤ) : Buffer α :=
  ⟨b.size, fun n => if (n : ℤ) = i then none else b.cell n⟩

/-- A computation on an array reads cell `i`: it succeeds, but not without the value there. -/
def Reads {β : Type*} (f : Buffer α → Option β) (b : Buffer α) (i : ℤ) : Prop :=
  (f b).isSome = true ∧ f (b.erase i) = none

lemma read_erase_self (b : Buffer α) (i : ℤ) : (b.erase i).read i = none := by
  rw [read]
  split_ifs with h
  · exact if_pos (Int.toNat_of_nonneg h.1)
  · rfl

lemma read_erase_of_ne {b : Buffer α} {i k : ℤ} (h : k ≠ i) : (b.erase i).read k = b.read k := by
  by_cases hk : b.InBounds k
  · have hne : ((k.toNat : ℕ) : ℤ) ≠ i := by rwa [Int.toNat_of_nonneg hk.1]
    rw [read, read, if_pos hk, if_pos (show (b.erase i).InBounds k from hk)]
    exact if_neg hne
  · rw [read, read, if_neg hk, if_neg (show ¬ (b.erase i).InBounds k from hk)]

/-! ### Consecutive writes -/

/-- Write a list of values from index `i` on. -/
def writeList (b : Buffer α) (i : ℤ) : List α → Option (Buffer α)
  | []      => some b
  | v :: vs => do
    let b ← b.write i v
    b.writeList (i + 1) vs

def setList (b : Buffer α) (i : ℤ) : List α → Buffer α
  | []      => b
  | v :: vs => (b.set i v).setList (i + 1) vs

@[simp] lemma size_setList (b : Buffer α) (i : ℤ) (vs : List α) :
    (b.setList i vs).size = b.size := by
  induction vs generalizing b i with
  | nil => rfl
  | cons v vs ih => exact ih (b.set i v) (i + 1)

lemma writeList_eq_some {b : Buffer α} {i : ℤ} {vs : List α} (h0 : 0 ≤ i)
    (h : i + vs.length ≤ b.size) : b.writeList i vs = some (b.setList i vs) := by
  induction vs generalizing b i with
  | nil => rfl
  | cons v vs ih =>
    simp only [List.length_cons, Nat.cast_add, Nat.cast_one] at h
    have hi : b.InBounds i := ⟨h0, by omega⟩
    simp only [writeList, write_eq_some hi, Option.bind_eq_bind, Option.bind_some]
    exact ih (by omega) (by simp only [size_set]; omega)

lemma read_setList_of_not_mem {b : Buffer α} {i k : ℤ} {vs : List α} (h0 : 0 ≤ i)
    (h : k < i ∨ i + vs.length ≤ k) : (b.setList i vs).read k = b.read k := by
  induction vs generalizing b i with
  | nil => rfl
  | cons v vs ih =>
    simp only [List.length_cons, Nat.cast_add, Nat.cast_one] at h
    rw [setList, ih (by omega) (by omega), read_set_of_ne h0 (by omega)]

lemma read_setList {b : Buffer α} {i k : ℤ} {vs : List α} (h0 : 0 ≤ i)
    (hs : i + vs.length ≤ b.size) (hk : i ≤ k) (hk' : k < i + vs.length) :
    (b.setList i vs).read k = vs[(k - i).toNat]? := by
  induction vs generalizing b i with
  | nil => simp at hk'; omega
  | cons v vs ih =>
    simp only [List.length_cons, Nat.cast_add, Nat.cast_one] at hs hk'
    rw [setList]
    by_cases hki : k = i
    · subst hki
      have hb : b.InBounds k := ⟨h0, by omega⟩
      rw [read_setList_of_not_mem (by omega) (by omega), read_set_self hb]
      simp
    · rw [ih (by omega) (by simp only [size_set]; omega) (by omega) (by omega)]
      have hsub : (k - i).toNat = (k - (i + 1)).toNat + 1 := by omega
      rw [hsub, List.getElem?_cons_succ]

/-! ### Filling an array from the front -/

/-- The loop `b[0] = f 0; b[1] = f 1; ...; b[n - 1] = f (n - 1)`. -/
def fill (b : Buffer α) (f : ℕ → α) (n : ℕ) : Option (Buffer α) :=
  (List.range n).foldlM (fun b (i : ℕ) => b.write i (f i)) b

lemma fill_spec {b : Buffer α} {f : ℕ → α} {n : ℕ} (hn : n ≤ b.size) :
    ∃ b', b.fill f n = some b' ∧ b'.size = b.size ∧ ∀ i < n, b'.read i = some (f i) := by
  refine Loops.exists_foldlM_range
    (fun n (b' : Buffer α) => b'.size = b.size ∧ ∀ i < n, b'.read i = some (f i)) ⟨rfl, by simp⟩ ?_
  rintro n hn' b' ⟨hsize, hread⟩
  have hin : b'.InBounds n := ⟨by omega, by omega⟩
  refine ⟨b'.set n (f n), write_eq_some hin (f n), hsize, fun i hi => ?_⟩
  rcases Nat.lt_succ_iff_lt_or_eq.mp hi with h | rfl
  · rw [read_set_of_ne (by omega) (by omega), hread i h]
  · exact read_set_self hin (f i)

end Buffer

/-! ### Rows of an array -/

/-- Different rows of length `w` do not overlap. -/
lemma row_disjoint {a b c w : ℤ} (hab : a ≠ b) (hc : 0 ≤ c) (hcw : c < w) :
    a * w + c < b * w ∨ b * w + w ≤ a * w + c := by
  rcases lt_or_gt_of_ne hab with h | h
  · left
    calc a * w + c < (a + 1) * w := by linarith
      _ ≤ b * w := Int.mul_le_mul_of_nonneg_right (by omega) (by omega)
  · right
    calc b * w + w = (b + 1) * w := by ring
      _ ≤ a * w := Int.mul_le_mul_of_nonneg_right (by omega) (by omega)
      _ ≤ a * w + c := by omega

/-- Run a fallible computation for every index; fails if one of them does. -/
def collect {n : ℕ} {α : Type*} (f : Fin n → Option α) : Option (Fin n → α) :=
  if h : ∀ k, (f k).isSome then some fun k => (f k).get (h k) else none

lemma collect_eq_some {n : ℕ} {α : Type*} {f : Fin n → Option α} {g : Fin n → α}
    (h : ∀ k, f k = some (g k)) : collect f = some g := by
  have hs : ∀ k, (f k).isSome := fun k => by simp [h k]
  rw [collect, dif_pos hs]
  simp [h]

end Checked
