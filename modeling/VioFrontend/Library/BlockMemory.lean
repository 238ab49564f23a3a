import VioFrontend.Library.CheckedBuffer

/-!
# Block memory

A memory is a family of checked arrays, one for each block, and a pointer is a block with an
offset into it. Different blocks never overlap; two ranges of one block overlap or not by their
offsets. `Memory.AgreesOutside` is the frame condition of a function that writes to one range.
-/

namespace Checked

structure Pointer (β : Type*) where
  block : β
  offset : ℤ

variable {α β : Type*}

/-- The pointer `n` elements further on. -/
def Pointer.shift (p : Pointer β) (n : ℤ) : Pointer β := { p with offset := p.offset + n }

/-- One array for each block. -/
structure Memory (β α : Type*) where
  array : β → Buffer α

namespace Memory

/-- `p[i]`. -/
def read (m : Memory β α) (p : Pointer β) (i : ℤ) : Option α :=
  (m.array p.block).read (p.offset + i)

/-- `n` elements from `p` on lie inside the block. -/
def InRange (m : Memory β α) (p : Pointer β) (n : ℤ) : Prop :=
  0 ≤ p.offset ∧ p.offset + n ≤ (m.array p.block).size

section

variable [DecidableEq β]

/-- `p[i] = v`. -/
def write (m : Memory β α) (p : Pointer β) (i : ℤ) (v : α) : Option (Memory β α) :=
  ((m.array p.block).write (p.offset + i) v).map fun b => ⟨Function.update m.array p.block b⟩

end

/-- Nothing has changed outside the `n` elements from `p` on. -/
structure AgreesOutside (m : Memory β α) (p : Pointer β) (n : ℤ) (m' : Memory β α) : Prop where
  size : ∀ b, (m'.array b).size = (m.array b).size
  read : ∀ b k, b ≠ p.block ∨ k < p.offset ∨ p.offset + n ≤ k →
    (m'.array b).read k = (m.array b).read k

namespace AgreesOutside

variable {p : Pointer β} {n : ℤ} {m m' m'' : Memory β α}

lemma refl (m : Memory β α) (p : Pointer β) (n : ℤ) : AgreesOutside m p n m :=
  ⟨fun _ => rfl, fun _ _ _ => rfl⟩

lemma mono {q : Pointer β} {n' : ℤ} (h : AgreesOutside m p n m') (hblock : q.block = p.block)
    (hlow : q.offset ≤ p.offset) (hhigh : p.offset + n ≤ q.offset + n') :
    AgreesOutside m q n' m' :=
  ⟨h.size, fun b k hk => h.read b k (hk.imp (fun hb => hblock ▸ hb) fun hk => by omega)⟩

lemma trans (h : AgreesOutside m p n m') (h' : AgreesOutside m' p n m'') :
    AgreesOutside m p n m'' :=
  ⟨fun b => (h'.size b).trans (h.size b), fun b k hk => (h'.read b k hk).trans (h.read b k hk)⟩

lemma inRange {q : Pointer β} {k : ℤ} (h : AgreesOutside m p n m') (hq : m.InRange q k) :
    m'.InRange q k := by
  rw [InRange, h.size]
  exact hq

/-- A read from elsewhere. -/
lemma read_eq {q : Pointer β} {i : ℤ} (h : AgreesOutside m p n m')
    (hq : q.block ≠ p.block ∨ q.offset + i < p.offset ∨ p.offset + n ≤ q.offset + i) :
    m'.read q i = m.read q i := h.read q.block (q.offset + i) hq

end AgreesOutside

variable [DecidableEq β] {m : Memory β α} {p q : Pointer β} {i j n : ℤ}

/-- A write inside the range succeeds; it is read back and changes nothing else. -/
lemma exists_write (hp : m.InRange p n) (hi : 0 ≤ i) (hin : i < n) (v : α) :
    ∃ m', m.write p i v = some m' ∧ m'.read p i = some v ∧ AgreesOutside m (p.shift i) 1 m' := by
  have hb : (m.array p.block).InBounds (p.offset + i) := by
    obtain ⟨hlow, hhigh⟩ := hp
    exact ⟨by omega, by omega⟩
  refine ⟨⟨Function.update m.array p.block ((m.array p.block).set (p.offset + i) v)⟩,
    ?_, ?_, ?_, ?_⟩
  · rw [write, Buffer.write_eq_some hb, Option.map_some]
  · simp only [read, Function.update_self, Buffer.read_set_self hb]
  · intro b
    by_cases hbp : b = p.block
    · subst hbp
      simp only [Function.update_self, Buffer.size_set]
    · simp only [Function.update_of_ne hbp]
  · intro b k hk
    by_cases hbp : b = p.block
    · subst hbp
      simp only [Pointer.shift, ne_eq, not_true_eq_false, false_or] at hk
      simp only [Function.update_self]
      exact Buffer.read_set_of_ne hb.1 (by omega) v
    · simp only [Function.update_of_ne hbp]

end Memory

/-- Rows before row `j` end where row `j` starts. -/
lemma row_lt {w x y j : ℕ} (hx : x < w) (hy : y < j) : (y : ℤ) * w + x < (j : ℤ) * w := by
  calc (y : ℤ) * w + x < (y + 1) * w := by linarith
    _ ≤ j * w := Int.mul_le_mul_of_nonneg_right (by omega) (by omega)

end Checked
