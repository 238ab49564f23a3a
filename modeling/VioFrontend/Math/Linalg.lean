import Mathlib.Tactic
import Mathlib.Data.Rat.Defs
import Mathlib.LinearAlgebra.Matrix.NonsingularInverse
import Mathlib.LinearAlgebra.Matrix.Notation

/-!
# Vectors and matrices

The `linalg` types in exact rational arithmetic. A matrix is a Mathlib matrix, and `multiply` is
its product. A division by zero has no value, so a result that may come from one is an `Option`.
-/

namespace VioFrontend

@[ext] structure Vec2 where
  x : ℚ
  y : ℚ
  deriving DecidableEq

namespace Vec2

instance : Zero Vec2 := ⟨⟨0, 0⟩⟩

instance : Add Vec2 := ⟨fun a b => ⟨a.x + b.x, a.y + b.y⟩⟩

instance : SMul ℚ Vec2 := ⟨fun alpha v => ⟨alpha * v.x, alpha * v.y⟩⟩

@[simp] lemma zero_x : (0 : Vec2).x = 0 := rfl

@[simp] lemma zero_y : (0 : Vec2).y = 0 := rfl

@[simp] lemma add_x (a b : Vec2) : (a + b).x = a.x + b.x := rfl

@[simp] lemma add_y (a b : Vec2) : (a + b).y = a.y + b.y := rfl

@[simp] lemma smul_x (alpha : ℚ) (v : Vec2) : (alpha • v).x = alpha * v.x := rfl

@[simp] lemma smul_y (alpha : ℚ) (v : Vec2) : (alpha • v).y = alpha * v.y := rfl

end Vec2

abbrev Mat (rows columns : ℕ) := Matrix (Fin rows) (Fin columns) ℚ

/-- A matrix of one column as a vector. -/
def columnVector (source : Mat 2 1) : Vec2 := ⟨source 0 0, source 1 0⟩

/-- The determinant of a 2x2 matrix. -/
def determinant (source : Mat 2 2) : ℚ := source 0 0 * source 1 1 - source 0 1 * source 1 0

/-- The inverse of a 2x2 matrix; every entry is divided by the determinant. -/
def inverse (source : Mat 2 2) : Option (Mat 2 2) :=
  let det := determinant source
  if det = 0 then none
  else some !![source 1 1 / det, -source 0 1 / det; -source 1 0 / det, source 0 0 / det]

lemma inverse_eq_none {source : Mat 2 2} : inverse source = none ↔ determinant source = 0 := by
  rw [inverse]
  split_ifs with h <;> simp [h]

lemma determinant_eq_det (M : Mat 2 2) : determinant M = M.det := (Matrix.det_fin_two M).symm

/-- The cofactor formula is the inverse. -/
lemma inverse_eq_some {M : Mat 2 2} (h : determinant M ≠ 0) : inverse M = some M⁻¹ := by
  rw [inverse, if_neg h, Matrix.inv_def, Matrix.adjugate_fin_two, ← determinant_eq_det,
    Ring.inverse_eq_inv']
  congr 1
  ext i j
  fin_cases i <;> fin_cases j <;> simp [div_eq_inv_mul]

/-- Lagrange's identity: the determinant of the sums of products is a sum of squares. -/
lemma sum_mul_self_mul_sum_mul_self {ι : Type*} [Fintype ι] (a b : ι → ℚ) :
    2 * ((∑ i, a i * a i) * (∑ i, b i * b i) - (∑ i, a i * b i) * (∑ i, a i * b i))
      = ∑ i, ∑ j, (a i * b j - a j * b i) ^ 2 := by
  have hexpand : ∀ i j, (a i * b j - a j * b i) ^ 2
      = (a i * a i) * (b j * b j) + (b i * b i) * (a j * a j)
        - 2 * ((a i * b i) * (a j * b j)) := fun i j => by ring
  simp only [hexpand, Finset.sum_sub_distrib, Finset.sum_add_distrib, ← Finset.mul_sum,
    ← Finset.sum_mul]
  ring

end VioFrontend
