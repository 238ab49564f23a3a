import VioFrontend.FeatureExtraction.Output
import VioFrontend.FeatureTracking.Lanes
import VioFrontend.Library.Runs
import VioFrontend.Pipeline.Pyramid

/-!
# The frame loop

The loop of `test_with_dataset_without_references_with_resample`. The pyramid of a frame is built in
the buffers of the caller, the frame is tracked into from the previous one, fresh keypoints are
extracted when fewer than 5 are left, and the patches are constructed for the next frame. A frame
that fails to load is skipped.

The solver that tracks a feature is a parameter.
-/

namespace VioFrontend

/-- What the loop carries from one frame to the next. -/
structure Pipeline where
  keypoints : ℕ → KeyPoint
  endKeypoints : ℕ → KeyPoint
  keypointsSize : ℕ
  staleFeatures : ℕ
  patches : PatchPyramid

/-- Count the stale ones of the first `size` keypoints. -/
def countStale (keypoints : ℕ → KeyPoint) (size : ℕ) : ℕ :=
  (List.range size).foldl (fun count i => if (keypoints i).stale then count + 1 else count) 0

/-- `memcpy` of the first `size` keypoints. -/
def copyKeypoints (destination source : ℕ → KeyPoint) (size : ℕ) : ℕ → KeyPoint := fun i =>
  if i < size then source i else destination i

/-- Track the keypoints into the frame and count the stale ones. -/
def trackFrame (solver : Solver) (imagePyramid : ℕ → Raster) (s : Pipeline) : Pipeline :=
  if 0 < s.keypointsSize then
    let endKeypoints := trackFeatures solver s.patches imagePyramid s.keypoints s.endKeypoints
      s.keypointsSize
    { s with
      keypoints := copyKeypoints s.keypoints endKeypoints s.keypointsSize
      endKeypoints
      staleFeatures := countStale endKeypoints s.keypointsSize }
  else s

/-- Fewer than 5 keypoints are left. -/
def needsResample (s : Pipeline) : Bool :=
  decide ((s.keypointsSize : ℤ) - s.staleFeatures < 5)

/-- Replace all keypoints by those extracted from the frame. -/
def resample (keypointsBufferSize : ℕ) (image : Raster) (s : Pipeline) : Option Pipeline := do
  let out ← extractFeatures image.data image.width image.height 70 s.keypoints keypointsBufferSize
  return { s with keypoints := out.keypoints, keypointsSize := out.size, staleFeatures := 0 }

/-- The patches around the keypoints are taken from the frame. -/
def constructPatches (imagePyramid : ℕ → Raster) (s : Pipeline) : Option Pipeline := do
  let patches ← s.patches.construct imagePyramid s.keypoints s.keypointsSize
  return { s with patches }

/-- The body of the loop for a frame with the given pyramid. -/
def processPyramid (solver : Solver) (keypointsBufferSize : ℕ) (imagePyramid : ℕ → Raster)
    (s : Pipeline) : Option Pipeline := do
  let s := trackFrame solver imagePyramid s
  let s ← if needsResample s then resample keypointsBufferSize (imagePyramid 0) s else some s
  constructPatches imagePyramid s

/-- The body of the loop; the frame `none` is one that fails to load. -/
def processFrame (solver : Solver) (buffers : FrameBuffers) (keypointsBufferSize : ℕ) :
    Option Raster → Pipeline → Option Pipeline
  | none, s => some s
  | some image, s => do
    let imagePyramid ← framePyramid buffers image
    processPyramid solver keypointsBufferSize imagePyramid s

/-- The keypoints are replaced at this frame. -/
def Resamples (solver : Solver) (buffers : FrameBuffers) (frame : Option Raster) (s : Pipeline) :
    Prop :=
  ∃ image imagePyramid, frame = some image ∧ framePyramid buffers image = some imagePyramid ∧
    needsResample (trackFrame solver imagePyramid s) = true

end VioFrontend
