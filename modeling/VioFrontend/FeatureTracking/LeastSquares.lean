import VioFrontend.Library.LeastSquares
import VioFrontend.FeatureTracking.Identity

/-!
# The increment as a least squares solution

The gradients of the previous patch and its time gradient are an overdetermined linear system for
the flow, one equation a pixel. `S` and `AT * b` are the two sides of its normal equations, so the
increment makes the sum of the squared errors least when `S` is invertible.
-/

namespace VioFrontend

open Matrix

/-- The sum of the squares of `Ix * v.x + Iy * v.y + It`. -/
def flowError (previous next : Patch) (v : Vec2) : ℚ :=
  ∑ k : PatchPixel,
    (previous.dx.at k * v.x + previous.dy.at k * v.y + (next.at k - previous.at k)) ^ 2

/-- A vector as a matrix column. -/
def Vec2.coordinates (v : Vec2) : Fin 2 → ℚ := ![v.x, v.y]

lemma Vec2.coordinates_injective : Function.Injective Vec2.coordinates := by
  intro v w h
  ext
  · exact congrFun h 0
  · exact congrFun h 1

lemma coordinates_columnVector (M : Mat 2 1) : (columnVector M).coordinates = fun i => M i 0 := by
  funext i
  fin_cases i <;> rfl

variable {previous next : Patch}

/-- The vector `b` of the code. -/
def timeColumn (previous next : Patch) (k : PatchPixel) : ℚ := -(previous.dt next).at k

lemma flowError_eq_squaredError (v : Vec2) :
    flowError previous next v
      = LeastSquares.squaredError (gradientMatrix previous)ᵀ (timeColumn previous next)
          v.coordinates := by
  rw [flowError, LeastSquares.squaredError, dotProduct]
  refine Finset.sum_congr rfl fun k _ => ?_
  have herror : ((gradientMatrix previous)ᵀ *ᵥ v.coordinates - timeColumn previous next) k
      = previous.dx.at k * v.x + previous.dy.at k * v.y + (next.at k - previous.at k) := by
    simp [mulVec, dotProduct, gradientMatrix, Vec2.coordinates, timeColumn, Patch.at,
      Patch.dt, Patch.row]
    ring
  rw [herror, sq]

lemma structureMatrix_eq_mul (p : Patch) :
    structureMatrix p = gradientMatrix p * (gradientMatrix p)ᵀ := by
  ext i j
  fin_cases i <;> fin_cases j <;>
    simp [structureMatrix, gradientMatrix, mul_apply, mul_comm]

/-- The increment solves the normal equations. -/
lemma isNormalSolution_incrementalFlow (hS : determinant (structureMatrix previous) ≠ 0) :
    LeastSquares.IsNormalSolution (gradientMatrix previous)ᵀ (timeColumn previous next)
      (incrementalFlow (structureMatrix previous)⁻¹ previous next).coordinates := by
  have hunit : IsUnit (structureMatrix previous).det :=
    isUnit_iff_ne_zero.mpr (determinant_eq_det _ ▸ hS)
  have hproduct : structureMatrix previous * ((structureMatrix previous)⁻¹ *
      (gradientMatrix previous * timeVector previous next))
        = gradientMatrix previous * timeVector previous next :=
    mul_nonsing_inv_cancel_left _ _ hunit
  rw [LeastSquares.IsNormalSolution, transpose_transpose, ← structureMatrix_eq_mul,
    incrementalFlow, coordinates_columnVector]
  funext i
  exact congrFun (congrFun hproduct i) 0

lemma flowError_incrementalFlow_lt (hS : determinant (structureMatrix previous) ≠ 0) {v : Vec2}
    (hv : v ≠ incrementalFlow (structureMatrix previous)⁻¹ previous next) :
    flowError previous next (incrementalFlow (structureMatrix previous)⁻¹ previous next)
      < flowError previous next v := by
  have hdet : ((gradientMatrix previous)ᵀᵀ * (gradientMatrix previous)ᵀ).det ≠ 0 := by
    rw [transpose_transpose, ← structureMatrix_eq_mul, ← determinant_eq_det]
    exact hS
  rw [flowError_eq_squaredError, flowError_eq_squaredError]
  apply (isNormalSolution_incrementalFlow hS).squaredError_lt hdet
  exact fun h => hv (Vec2.coordinates_injective h)

/-- The increment is the only vector with the least squared error. -/
theorem incrementalFlow_isLeast (previous next : Patch)
    (hS : determinant (structureMatrix previous) ≠ 0) :
    ∃ Sinv, inverse (structureMatrix previous) = some Sinv ∧
      ∀ v ≠ incrementalFlow Sinv previous next,
        flowError previous next (incrementalFlow Sinv previous next)
          < flowError previous next v :=
  ⟨_, inverse_eq_some hS, fun _ hv => flowError_incrementalFlow_lt hS hv⟩

abbrev productPatch : Patch := Patch.ofImage (0 : ℤ) (0 : ℤ) productRaster

theorem incrementalFlow_isLeast_productPatch :
    ∃ Sinv, inverse (structureMatrix productPatch) = some Sinv ∧
      ∀ v ≠ incrementalFlow Sinv productPatch (Patch.ofImage 0 0 blackRaster),
        flowError productPatch (Patch.ofImage 0 0 blackRaster)
            (incrementalFlow Sinv productPatch (Patch.ofImage 0 0 blackRaster))
          < flowError productPatch (Patch.ofImage 0 0 blackRaster) v :=
  incrementalFlow_isLeast productPatch (Patch.ofImage 0 0 blackRaster) determinant_productRaster

end VioFrontend
