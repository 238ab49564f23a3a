import VioFrontend.Library.Descent
import VioFrontend.FeatureTracking.LeastSquares

/-!
# The flows of a level

The minimisation is a descent loop on the residual, whose steps are the increments. The flows that
an increment is added to have decreasing residuals. A residual that has not decreased adds no
increment and ends the loop; no earlier flow is kept that the loop could go back to, so the last
increment is kept whatever the residual is that it leads to.
-/

namespace VioFrontend

section

variable (previous : Patch) (image : Raster) (incoming : Vec2)

/-- The sum of the absolute differences between the patch and the next image, as a function of the
flow at this level. -/
def residualAt (flow : Vec2) : ℚ := residual previous (nextPatch previous image (flow + incoming))

/-- The increment computed at a flow. -/
def incrementAt (Sinv : Mat 2 2) (flow : Vec2) : Vec2 :=
  incrementalFlow Sinv previous (nextPatch previous image (flow + incoming))

/-- The flow after one more increment. -/
def flowStep (Sinv : Mat 2 2) (flow : Vec2) : Vec2 :=
  flow + incrementAt previous image incoming Sinv flow

/-- The flow after `n` increments. -/
def flowAfter (Sinv : Mat 2 2) (n : ℕ) : Vec2 := (flowStep previous image incoming Sinv)^[n] 0

/-- The loop of the level ends after `n` increments, and for the reason that it says. -/
structure EndsAfter (Sinv : Mat 2 2) (n : ℕ) : Prop where
  le : n ≤ 51
  decreases : ∀ m, m + 1 < n →
    residualAt previous image incoming (flowAfter previous image incoming Sinv (m + 1))
      < residualAt previous image incoming (flowAfter previous image incoming Sinv m)
  large : ∀ m, m + 1 < n → exceedsThreshold
    (incrementAt previous image incoming Sinv (flowAfter previous image incoming Sinv m)) = true
  /-- All increments are made, the first residual is too large, the last increment is small, or the
  residual that it leads to has not decreased. -/
  ends : n = 51 ∨ n = 0 ∧ fltMax ≤ residualAt previous image incoming 0 ∨
    ∃ m, n = m + 1 ∧
      (exceedsThreshold (incrementAt previous image incoming Sinv
          (flowAfter previous image incoming Sinv m)) = false ∨
        residualAt previous image incoming (flowAfter previous image incoming Sinv m)
          ≤ residualAt previous image incoming (flowAfter previous image incoming Sinv (m + 1)))

end

variable {previous : Patch} {image : Raster} {incoming : Vec2}

/-- The minimisation loop as a descent loop. -/
lemma minimise_eq_run (Sinv : Mat 2 2) (iterations : ℕ) (norm : ℚ) (flow : Vec2) :
    minimise previous image incoming (some Sinv) iterations norm flow
      = some (Descent.run (flowStep previous image incoming Sinv)
          (residualAt previous image incoming)
          (fun flow => exceedsThreshold (incrementAt previous image incoming Sinv flow))
          iterations norm flow) := by
  induction iterations generalizing norm flow with
  | zero =>
    by_cases hless : residual previous (nextPatch previous image (flow + incoming)) < norm
    · rw [minimise.eq_def, Descent.run, residualAt]
      simp only [hless, if_true, ite_self]
      rfl
    · rw [minimise_of_not_lt hless, Descent.run_of_not_lt]
      exact hless
  | succ n ih =>
    by_cases hless : residual previous (nextPatch previous image (flow + incoming)) < norm
    · rw [Descent.run, residualAt, if_pos hless]
      cases hlarge : exceedsThreshold (incrementAt previous image incoming Sinv flow) with
      | true =>
        rw [minimise_of_large hless hlarge]
        exact ih ..
      | false => exact minimise_of_small hless hlarge
    · rw [minimise_of_not_lt hless, Descent.run_of_not_lt]
      exact hless

lemma levelDisplacement_eq_run (hS : determinant (structureMatrix previous) ≠ 0) :
    levelDisplacement previous image (some incoming)
      = some (Descent.run (flowStep previous image incoming (structureMatrix previous)⁻¹)
          (residualAt previous image incoming)
          (fun flow => exceedsThreshold
            (incrementAt previous image incoming (structureMatrix previous)⁻¹ flow))
          50 fltMax 0 + incoming) := by
  rw [levelDisplacement, inverse_eq_some hS, Option.bind_eq_bind, Option.bind_some,
    minimise_eq_run, Option.bind_some]
  rfl

/-- The steps of the descent loop are the increments. -/
lemma endsAfter_of_makes {Sinv : Mat 2 2} {n : ℕ} (hn : n ≤ 51)
    (hmakes : ∀ m < n, Descent.Makes (flowStep previous image incoming Sinv)
      (residualAt previous image incoming)
      (fun flow => exceedsThreshold (incrementAt previous image incoming Sinv flow)) fltMax 0 m)
    (hends : n ≤ 50 → ¬ Descent.Makes (flowStep previous image incoming Sinv)
      (residualAt previous image incoming)
      (fun flow => exceedsThreshold (incrementAt previous image incoming Sinv flow)) fltMax 0 n) :
    EndsAfter previous image incoming Sinv n := by
  refine ⟨hn, fun m hm => (hmakes (m + 1) hm).decreases m (Nat.lt_succ_self m),
    fun m hm => (hmakes (m + 1) hm).large m (Nat.lt_succ_self m), ?_⟩
  rcases hn.eq_or_lt with rfl | hlt
  · exact Or.inl rfl
  have hnot := hends (by omega)
  cases n with
  | zero =>
    refine Or.inr (Or.inl ⟨rfl, not_lt.mp fun hless => hnot ⟨hless, ?_, ?_⟩⟩) <;>
      exact fun m hm => absurd hm (Nat.not_lt_zero m)
  | succ m =>
    rw [(hmakes m (Nat.lt_succ_self m)).succ_iff, not_and_or, Bool.not_eq_true, not_lt] at hnot
    exact Or.inr (Or.inr ⟨m, rfl, hnot⟩)

/-- A level adds increments to flows whose residuals strictly decrease from that of the incoming
flow, until the residual has not decreased, an increment was small, or 51 are made. Each increment
minimises the squared error of the linearised match. -/
theorem levelDisplacement_flowAfter (previous : Patch) (image : Raster) (incoming : Vec2)
    (hS : determinant (structureMatrix previous) ≠ 0) :
    ∃ Sinv n, inverse (structureMatrix previous) = some Sinv ∧
      levelDisplacement previous image (some incoming)
        = some (flowAfter previous image incoming Sinv n + incoming) ∧
      EndsAfter previous image incoming Sinv n ∧
      ∀ m < n,
        residualAt previous image incoming (flowAfter previous image incoming Sinv m)
          ≤ residualAt previous image incoming 0 ∧
        ∀ v, flowError previous
            (nextPatch previous image (flowAfter previous image incoming Sinv m + incoming))
            (incrementAt previous image incoming Sinv (flowAfter previous image incoming Sinv m))
          ≤ flowError previous
            (nextPatch previous image (flowAfter previous image incoming Sinv m + incoming)) v := by
  obtain ⟨n, hn, hmakes, hends, hrun⟩ := Descent.run_eq_iterate
    (flowStep previous image incoming (structureMatrix previous)⁻¹)
    (residualAt previous image incoming)
    (fun flow => exceedsThreshold
      (incrementAt previous image incoming (structureMatrix previous)⁻¹ flow)) 50 fltMax 0
  refine ⟨_, n, inverse_eq_some hS, ?_, endsAfter_of_makes hn hmakes hends, fun m hm => ⟨?_, ?_⟩⟩
  · rw [levelDisplacement_eq_run hS, hrun]
    rfl
  · exact (hmakes m hm).cost_le le_rfl
  · intro v
    rcases eq_or_ne v (incrementAt previous image incoming (structureMatrix previous)⁻¹
      (flowAfter previous image incoming (structureMatrix previous)⁻¹ m)) with rfl | hne
    · exact le_rfl
    · exact (flowError_incrementalFlow_lt hS hne).le

/-- A corner that gets brighter to the lower right. -/
def rampRaster : Raster :=
  ⟨27, 27, fun x y =>
    if (9 ≤ x ∧ x ≤ 17) ∧ (9 ≤ y ∧ y ≤ 17) then UInt8.ofNat ((x - 9) * (y - 9)).toNat else 0⟩

/-- Black, with white from the end of the ramp on. -/
def frameRaster : Raster := ⟨27, 27, fun x y => if 17 ≤ x ∨ 17 ≤ y then 255 else 0⟩

/-- The residual after the first increment is larger, so the level ends after one increment. -/
theorem levelDisplacement_flowAfter_rampRaster :
    ∃ Sinv, inverse (structureMatrix (Patch.ofImage 10 10 rampRaster)) = some Sinv ∧
      levelDisplacement (Patch.ofImage 10 10 rampRaster) frameRaster (some 0)
        = some (flowAfter (Patch.ofImage 10 10 rampRaster) frameRaster 0 Sinv 1 + 0) ∧
      residualAt (Patch.ofImage 10 10 rampRaster) frameRaster 0 0
        < residualAt (Patch.ofImage 10 10 rampRaster) frameRaster 0
            (flowAfter (Patch.ofImage 10 10 rampRaster) frameRaster 0 Sinv 1) := by
  have hfirst : residualAt (Patch.ofImage 10 10 rampRaster) frameRaster 0 0 < fltMax := by
    decide +kernel
  have hsecond : (inverse (structureMatrix (Patch.ofImage 10 10 rampRaster))).map (fun Sinv =>
      decide (residualAt (Patch.ofImage 10 10 rampRaster) frameRaster 0 0
        < residualAt (Patch.ofImage 10 10 rampRaster) frameRaster 0
            (flowAfter (Patch.ofImage 10 10 rampRaster) frameRaster 0 Sinv 1))) = some true := by
    decide +kernel
  obtain ⟨Sinv, n, hSinv, hlevel, hends, -⟩ := levelDisplacement_flowAfter
    (Patch.ofImage 10 10 rampRaster) frameRaster 0 (by decide +kernel)
  rw [hSinv, Option.map_some, Option.some.injEq, decide_eq_true_iff] at hsecond
  have hn : n = 1 := by
    rcases Nat.lt_trichotomy n 1 with hlt | rfl | hgt
    · obtain rfl := Nat.lt_one_iff.mp hlt
      rcases hends.ends with h | ⟨-, hmax⟩ | ⟨m, hm, -⟩
      · cases h
      · exact absurd hfirst (not_lt.mpr hmax)
      · cases hm
    · rfl
    · exact absurd (hends.decreases 0 hgt) hsecond.asymm
  subst hn
  exact ⟨Sinv, hSinv, hlevel, hsecond⟩

/-- The first increment is 5/18 in both directions. It raises the residual from 784 to more than
1069, and it is kept. -/
theorem minimise_keeps_increment :
    minimise (Patch.ofImage 10 10 rampRaster) frameRaster 0
        (inverse (structureMatrix (Patch.ofImage 10 10 rampRaster))) 50 fltMax 0
      = some ⟨5 / 18, 5 / 18⟩ ∧
    residualAt (Patch.ofImage 10 10 rampRaster) frameRaster 0 0 = 784 ∧
    residualAt (Patch.ofImage 10 10 rampRaster) frameRaster 0 ⟨5 / 18, 5 / 18⟩ > 1069 := by
  refine ⟨?_, ?_, ?_⟩
  · decide +kernel
  · decide +kernel
  · decide +kernel

end VioFrontend
