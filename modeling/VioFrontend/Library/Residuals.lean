import Mathlib.Tactic

/-!
# Residual coding

A sequence is coded by what it adds to the values that a predictor expects. The predictor sees the
whole sequence; it is causal when it expects the same at a position for all sequences that agree
before the position. Then the sequence can be decoded from its residuals, one value after another.
-/

namespace Residuals

variable {α : Type*}

/-- What is expected at a position depends on the values before it. -/
def Causal (expected : (ℕ → α) → ℕ → α) : Prop :=
  ∀ f g n, (∀ k < n, f k = g k) → expected f n = expected g n

/-- The first `n` values are the sums of the residuals and what is expected. -/
def Decodes [Add α] (expected : (ℕ → α) → ℕ → α) (residual f : ℕ → α) (n : ℕ) : Prop :=
  ∀ k < n, f k = residual k + expected f k

/-- The residuals of a sequence. -/
def encode [Sub α] (expected : (ℕ → α) → ℕ → α) (f : ℕ → α) (k : ℕ) : α := f k - expected f k

/-- The sequence with the given residuals. -/
def decode [Add α] [Zero α] (expected : (ℕ → α) → ℕ → α) (residual : ℕ → α) (n : ℕ) : α :=
  residual n + expected (fun k => if _ : k < n then decode expected residual k else 0) n

variable {expected : (ℕ → α) → ℕ → α} {residual f g : ℕ → α} {n : ℕ}

lemma decodes_decode [Add α] [Zero α] (hcausal : Causal expected) (residual : ℕ → α) (n : ℕ) :
    Decodes expected residual (decode expected residual) n := by
  intro k _
  rw [decode.eq_def]
  congr 1
  exact hcausal _ _ k fun j hj => dif_pos hj

/-- A sequence is decoded from its residuals. -/
lemma decodes_encode [AddGroup α] (f : ℕ → α) (n : ℕ) :
    Decodes expected (encode expected f) f n := fun _ _ => (sub_add_cancel _ _).symm

end Residuals
