import VioFrontend.Library.BlockMemory

/-!
# Memory accesses

A program that takes its memory accesses as a parameter can be run on plain memory, and also on
memory whose written cells cannot be read any more. If the second run succeeds too, then the
program has read no value that it wrote itself.
-/

namespace Checked

/-! ### The cells that a computation reads -/

namespace Memory

variable {α β : Type*} [DecidableEq β] {m : Memory β α} {b b' : β} {k k' : ℤ}

/-- The memory with one cell as if it was never written. -/
def erase (m : Memory β α) (b : β) (k : ℤ) : Memory β α :=
  ⟨Function.update m.array b ((m.array b).erase k)⟩

/-- A computation reads cell `k` of block `b`: it succeeds, but not without the value there. -/
def Reads {γ : Type*} (f : Memory β α → Option γ) (m : Memory β α) (b : β) (k : ℤ) : Prop :=
  (f m).isSome = true ∧ f (m.erase b k) = none

lemma size_erase : ((m.erase b k).array b').size = (m.array b').size := by
  by_cases hb : b' = b
  · subst hb
    simp only [erase, Function.update_self]
    rfl
  · simp only [erase, Function.update_of_ne hb]

lemma read_erase_of_ne {p : Pointer β} {i : ℤ} (h : p.block ≠ b ∨ p.offset + i ≠ k) :
    (m.erase b k).read p i = m.read p i := by
  by_cases hb : p.block = b
  · subst hb
    simp only [read, erase, Function.update_self]
    exact Buffer.read_erase_of_ne (h.resolve_left fun hne => hne rfl)
  · simp only [read, erase, Function.update_of_ne hb]

lemma InRange.erase {p : Pointer β} {n : ℤ} (h : m.InRange p n) (b : β) (k : ℤ) :
    (m.erase b k).InRange p n := by
  simp only [InRange, size_erase]
  exact h

/-- A computation that succeeds without a cell does not read it. -/
lemma not_reads {γ : Type*} {f : Memory β α → Option γ} {c : γ} (h : f (m.erase b k) = some c) :
    ¬ Reads f m b k :=
  fun hreads => Option.some_ne_none c (h.symm.trans hreads.2)

end Memory

/-! ### Programs over their accesses -/

/-- The read and the write of a program whose memory is a `μ`. -/
structure Access (β α μ : Type*) where
  read : μ → Pointer β → ℤ → Option α
  write : μ → Pointer β → ℤ → α → Option μ

/-- Memory with the addresses that were written. -/
structure Ledger (β α : Type*) where
  memory : Memory β α
  written : List (β × ℤ)

namespace Access

variable {α β : Type*} [DecidableEq β]

def plain : Access β α (Memory β α) := ⟨Memory.read, Memory.write⟩

/-- A cell that was written cannot be read any more. -/
def unread : Access β α (Ledger β α) where
  read l p i := if (p.block, p.offset + i) ∈ l.written then none else l.memory.read p i
  write l p i v := (l.memory.write p i v).map fun m => ⟨m, (p.block, p.offset + i) :: l.written⟩

/-- All writes were made before the cell with offset `n`. -/
def Ledger.Below (l : Ledger β α) (n : ℤ) : Prop := ∀ a ∈ l.written, a.2 < n

omit [DecidableEq β] in
lemma Ledger.Below.mono {l : Ledger β α} {n n' : ℤ} (h : Ledger.Below l n) (hn : n ≤ n') :
    Ledger.Below l n' := fun a ha => (h a ha).trans_le hn

/-- Reads behind all writes see the memory. -/
lemma unread_read {l : Ledger β α} {n : ℤ} {p : Pointer β} {i : ℤ} (h : Ledger.Below l n)
    (hi : n ≤ p.offset + i) : unread.read l p i = l.memory.read p i := by
  refine if_neg fun hmem => ?_
  have hlt := h _ hmem
  simp only at hlt
  omega

lemma unread_write {l : Ledger β α} {m' : Memory β α} {n : ℤ} {p : Pointer β} {i : ℤ} {v : α}
    (h : Ledger.Below l n) (hi : p.offset + i < n) (hwrite : l.memory.write p i v = some m') :
    ∃ written, unread.write l p i v = some ⟨m', written⟩ ∧ Ledger.Below ⟨m', written⟩ n := by
  refine ⟨(p.block, p.offset + i) :: l.written, ?_, fun a ha => ?_⟩
  · simp only [unread, hwrite, Option.map_some]
  · rcases List.mem_cons.mp ha with rfl | ha
    · exact hi
    · exact h a ha

end Access

end Checked
