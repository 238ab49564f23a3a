import Mathlib.LinearAlgebra.Matrix.DotProduct
import Mathlib.LinearAlgebra.Matrix.Nondegenerate
import Mathlib.Tactic.Ring
import Mathlib.Tactic.Linarith

/-!
# Least squares

An overdetermined system `A u = b` has no solution in general; a solution of its normal equations
`Aᵀ A u = Aᵀ b` makes the sum of the squared errors least. It is the only vector that does, when
the columns of `A` are independent.
-/

namespace LeastSquares

open Matrix

variable {m n R : Type*} [Fintype m] [Fintype n] [CommRing R] {A : Matrix m n R} {b : m → R}
  {u : n → R}

/-- The sum of the squared errors. -/
def squaredError (A : Matrix m n R) (b : m → R) (u : n → R) : R :=
  (A *ᵥ u - b) ⬝ᵥ (A *ᵥ u - b)

/-- `u` solves the normal equations. -/
def IsNormalSolution (A : Matrix m n R) (b : m → R) (u : n → R) : Prop :=
  (Aᵀ * A) *ᵥ u = Aᵀ *ᵥ b

/-- The error of a normal solution is orthogonal to everything that `A` reaches. -/
lemma IsNormalSolution.orthogonal (h : IsNormalSolution A b u) (w : n → R) :
    (A *ᵥ u - b) ⬝ᵥ (A *ᵥ w) = 0 := by
  have hnormal : Aᵀ *ᵥ (A *ᵥ u - b) = 0 := by
    rw [mulVec_sub, mulVec_mulVec, h, sub_self]
  rw [dotProduct_mulVec, ← mulVec_transpose, hnormal, zero_dotProduct]

/-- Pythagoras: off the normal solution the error grows by the distance that `A` reaches. -/
lemma IsNormalSolution.squaredError_eq (h : IsNormalSolution A b u) (v : n → R) :
    squaredError A b v = squaredError A b u + (A *ᵥ (v - u)) ⬝ᵥ (A *ᵥ (v - u)) := by
  have hsplit : A *ᵥ v - b = (A *ᵥ u - b) + A *ᵥ (v - u) := by
    rw [mulVec_sub]
    abel
  rw [squaredError, hsplit, add_dotProduct, dotProduct_add, dotProduct_add, h.orthogonal,
    dotProduct_comm (A *ᵥ (v - u)) (A *ᵥ u - b), h.orthogonal, squaredError]
  ring

lemma mulVec_ne_zero [IsDomain R] [DecidableEq n] (hA : (Aᵀ * A).det ≠ 0) {w : n → R} (hw : w ≠ 0) :
    A *ᵥ w ≠ 0 := by
  intro h
  apply hw
  apply eq_zero_of_mulVec_eq_zero hA
  rw [← mulVec_mulVec, h, mulVec_zero]

variable [LinearOrder R] [IsStrictOrderedRing R]

lemma dotProduct_self_pos {w : m → R} (hw : w ≠ 0) : 0 < w ⬝ᵥ w := by
  have hnonneg : 0 ≤ w ⬝ᵥ w := Finset.sum_nonneg fun i _ => mul_self_nonneg (w i)
  exact lt_of_le_of_ne hnonneg fun h => hw (dotProduct_self_eq_zero.mp h.symm)

/-- A normal solution is the only vector with the least error. -/
theorem IsNormalSolution.squaredError_lt [DecidableEq n] (h : IsNormalSolution A b u)
    (hA : (Aᵀ * A).det ≠ 0) {v : n → R} (hv : v ≠ u) :
    squaredError A b u < squaredError A b v := by
  have hpos : 0 < (A *ᵥ (v - u)) ⬝ᵥ (A *ᵥ (v - u)) :=
    dotProduct_self_pos (mulVec_ne_zero hA (sub_ne_zero.mpr hv))
  rw [h.squaredError_eq v]
  linarith

/-- Scaling the system does not change its normal solutions. -/
lemma isNormalSolution_smul_iff {c : R} (hc : c ≠ 0) :
    IsNormalSolution (c • A) (c • b) u ↔ IsNormalSolution A b u := by
  have hleft : ((c • A)ᵀ * (c • A)) *ᵥ u = (c * c) • (Aᵀ * A) *ᵥ u := by
    rw [transpose_smul, Matrix.smul_mul, Matrix.mul_smul, smul_smul, smul_mulVec]
  have hright : (c • A)ᵀ *ᵥ (c • b) = (c * c) • Aᵀ *ᵥ b := by
    rw [transpose_smul, smul_mulVec, mulVec_smul, smul_smul]
  rw [IsNormalSolution, IsNormalSolution, hleft, hright]
  exact (smul_right_injective (n → R) (mul_ne_zero hc hc)).eq_iff

lemma IsNormalSolution.unique [DecidableEq n] (h : IsNormalSolution A b u)
    (hA : (Aᵀ * A).det ≠ 0) {v : n → R} (hv : IsNormalSolution A b v) : u = v := by
  by_contra hne
  exact (h.squaredError_lt hA (Ne.symm hne)).asymm (hv.squaredError_lt hA hne)

/-- The normal solution of a system that has a solution is that solution. -/
lemma IsNormalSolution.eq_of_mulVec_eq [DecidableEq n] (h : IsNormalSolution A b u)
    (hA : (Aᵀ * A).det ≠ 0) {v : n → R} (hv : A *ᵥ v = b) : u = v := by
  apply h.unique hA
  rw [IsNormalSolution, ← mulVec_mulVec, hv]

end LeastSquares
