import VioFrontend.Image.Patch

/-!
# Feature tracking

The function `track_features`: for every pyramid level from the coarsest to the finest, and for
every feature, a Lucas-Kanade solve whose flow is the initial guess one level below.

What is done for one feature at one level is a `Solver`: the test that rejects the feature, and
the displacement computed from the incoming flow. `lucasKanade` is the solver of the code. An
undefined value is `none`: it comes from a division by zero and stays undefined in every sum.
-/

namespace VioFrontend

/-! ### The Lucas-Kanade solve -/

/-- The patch pixels without the border, counted row by row. -/
abbrev PatchPixel := Fin (patchSize * patchSize)

/-- The value of a patch at a pixel. -/
def Patch.at (p : Patch) (k : PatchPixel) : ℚ := p.row (k / patchSize) (k % patchSize)

/-- `S`, the sums of the products of the gradients. -/
def structureMatrix (previous : Patch) : Mat 2 2 :=
  let Ix := previous.dx.at
  let Iy := previous.dy.at
  !![∑ k, Ix k * Ix k, ∑ k, Ix k * Iy k; ∑ k, Ix k * Iy k, ∑ k, Iy k * Iy k]

/-- `AT`, the gradients by row. -/
def gradientMatrix (previous : Patch) : Mat 2 (patchSize * patchSize) :=
  Matrix.of ![previous.dx.at, previous.dy.at]

/-- `b`, the negative time gradient. -/
def timeVector (previous next : Patch) : Mat (patchSize * patchSize) 1 :=
  Matrix.of fun k _ => -(previous.dt next).at k

/-- The sum of the absolute differences of two patches. -/
def residual (previous next : Patch) : ℚ := ∑ k, |(previous.dt next).at k|

/-- The largest float, `(2 - 2^-23) * 2^127`. -/
def fltMax : ℚ := (2 ^ 24 - 1) * 2 ^ 104

/-- `linalg::norm(v) > 0.01`, compared by the squares. -/
def exceedsThreshold (v : Vec2) : Bool := decide ((1 / 100 : ℚ) ^ 2 < v.x ^ 2 + v.y ^ 2)

/-- The patch that the next image has where the flow leads to. -/
def nextPatch (previous : Patch) (image : Raster) (totalFlow : Vec2) : Patch :=
  Patch.ofImage (previous.origin.x + totalFlow.x) (previous.origin.y + totalFlow.y) image

/-- `Sinv * (AT * b)` as a vector. -/
def incrementalFlow (Sinv : Mat 2 2) (previous next : Patch) : Vec2 :=
  let ATb := gradientMatrix previous * timeVector previous next
  columnVector (Sinv * ATb)

/-- The minimisation loop with `iterations` more iterations allowed after this one. -/
def minimise (previous : Patch) (image : Raster) (incoming : Vec2) (Sinv : Option (Mat 2 2)) :
    ℕ → ℚ → Vec2 → Option Vec2
  | iterations, norm, flow =>
    let next := nextPatch previous image (flow + incoming)
    let currentNorm := residual previous next
    if currentNorm < norm then
      match Sinv with
      | none => none
      | some Sinv =>
        let increment := incrementalFlow Sinv previous next
        if exceedsThreshold increment then
          match iterations with
          | 0 => some (flow + increment)
          | n + 1 =>
            minimise previous image incoming (some Sinv) n currentNorm (flow + increment)
        else some (flow + increment)
    else some flow

/-- The displacement at one level, `flow + pyramid_level_flow[feature_index][pyramid_level]`. An
undefined incoming flow makes the next patch undefined, so the first comparison of the loop fails
and the sum is undefined. -/
def levelDisplacement (previous : Patch) (image : Raster) (incoming : Option Vec2) :
    Option Vec2 := do
  let incoming ← incoming
  let flow ← minimise previous image incoming (inverse (structureMatrix previous)) 50 fltMax 0
  return flow + incoming

section

variable {previous : Patch} {image : Raster} {incoming flow : Vec2} {Sinv : Mat 2 2}
  {iterations : ℕ} {norm : ℚ}

/-- The loop ends at once when the residual has not decreased. -/
lemma minimise_of_not_lt {Sinv : Option (Mat 2 2)}
    (h : ¬ residual previous (nextPatch previous image (flow + incoming)) < norm) :
    minimise previous image incoming Sinv iterations norm flow = some flow := by
  rw [minimise.eq_def]
  exact if_neg h

/-- The loop ends after a small increment. -/
lemma minimise_of_small (h : residual previous (nextPatch previous image (flow + incoming)) < norm)
    (hsmall : exceedsThreshold
      (incrementalFlow Sinv previous (nextPatch previous image (flow + incoming))) = false) :
    minimise previous image incoming (some Sinv) iterations norm flow
      = some
          (flow + incrementalFlow Sinv previous (nextPatch previous image (flow + incoming))) := by
  rw [minimise.eq_def]
  simp only [h, if_true, hsmall, Bool.false_eq_true, if_false]

/-- The loop goes on after a large increment. -/
lemma minimise_of_large (h : residual previous (nextPatch previous image (flow + incoming)) < norm)
    (hlarge : exceedsThreshold
      (incrementalFlow Sinv previous (nextPatch previous image (flow + incoming))) = true) :
    minimise previous image incoming (some Sinv) (iterations + 1) norm flow
      = minimise previous image incoming (some Sinv) iterations
          (residual previous (nextPatch previous image (flow + incoming)))
          (flow + incrementalFlow Sinv previous (nextPatch previous image (flow + incoming))) := by
  rw [minimise]
  simp only [h, if_true, hlarge]

end

/-! ### The loops over levels and features -/

structure Solver where
  /-- Whether the feature with this patch is rejected. -/
  rejects : Patch → Bool
  displacement : Patch → Raster → Option Vec2 → Option Vec2

/-- The solver of the code, with the rejection test left open. -/
def lucasKanadeRejecting (nonInvertible : Mat 2 2 → Bool) : Solver where
  rejects previous := nonInvertible (structureMatrix previous)
  displacement := levelDisplacement

/-- `isnan` and `isinf`: a value that is not a number. -/
def isUndefined (value : Option ℚ) : Bool := value.isNone

/-- The solver of the code: the test is `isnan(S_determinant) || isinf(S_determinant)`. -/
def lucasKanade : Solver := lucasKanadeRejecting fun S => isUndefined (some (determinant S))

/-- The C function `round`, which rounds halves away from zero. -/
def roundToInt (q : ℚ) : ℤ := if 0 ≤ q then ⌊q + 1 / 2⌋ else ⌈q - 1 / 2⌉

/-- `(int)round(value)`; the conversion of an undefined value gives 0 on the target. -/
def roundCoordinate (value : Option ℚ) : ℤ := (value.map roundToInt).getD 0

/-- The keypoint that a displacement at the finest level gives. -/
def trackedKeypoint (origin : Vec2) (displacement : Option Vec2) (image : Raster) : KeyPoint :=
  let x := roundCoordinate (displacement.map fun d => origin.x + (patchSize / 2 : ℕ) + d.x)
  let y := roundCoordinate (displacement.map fun d => origin.y + (patchSize / 2 : ℕ) + d.y)
  ⟨⟨x, y⟩, decide (x < 0 ∨ y < 0 ∨ x > (image.width : ℤ) - 1 ∨ y > (image.height : ℤ) - 1)⟩

/-- What the loops update: `pyramid_level_flow` by feature and level, and the keypoints found. -/
structure Tracking where
  flow : ℕ → ℕ → Option Vec2
  nextKeypoints : ℕ → KeyPoint

section

variable (solver : Solver) (patches : PatchPyramid) (imagePyramid : ℕ → Raster)
  (previousKeypoints : ℕ → KeyPoint)

/-- The solve for feature `k` at one level, and where its result goes. -/
def trackFeature (pyramidLevel k : ℕ) (s : Tracking) : Tracking :=
  let previous := patches k pyramidLevel
  let displacement := solver.displacement previous (imagePyramid pyramidLevel)
    (s.flow k pyramidLevel)
  if 0 < pyramidLevel then
    let flow := Function.update (s.flow k) (pyramidLevel - 1) (displacement.map ((2 : ℚ) • ·))
    { s with flow := Function.update s.flow k flow }
  else
    let keypoint := trackedKeypoint previous.origin displacement (imagePyramid 0)
    { s with nextKeypoints := Function.update s.nextKeypoints k keypoint }

/-- What is done for a feature that was stale before. -/
def keepStale (k : ℕ) (s : Tracking) : Tracking :=
  let keypoint := { s.nextKeypoints k with stale := true }
  { s with nextKeypoints := Function.update s.nextKeypoints k keypoint }

/-- The loop over features at one level; a rejected feature breaks it off. -/
def trackLevel (pyramidLevel : ℕ) : List ℕ → Tracking → Tracking
  | [], s => s
  | k :: ks, s =>
    if (previousKeypoints k).stale then
      trackLevel pyramidLevel ks (keepStale k s)
    else if solver.rejects (patches k pyramidLevel) then s
    else trackLevel pyramidLevel ks (trackFeature solver patches imagePyramid pyramidLevel k s)

/-- Track the first `previousKeypointsSize` keypoints into the next image. -/
def trackFeatures (nextKeypoints : ℕ → KeyPoint) (previousKeypointsSize : ℕ) : ℕ → KeyPoint :=
  ([4, 3, 2, 1, 0].foldl (fun s pyramidLevel =>
    trackLevel solver patches imagePyramid previousKeypoints pyramidLevel
      (List.range previousKeypointsSize) s) ⟨fun _ _ => some 0, nextKeypoints⟩).nextKeypoints

end

end VioFrontend
