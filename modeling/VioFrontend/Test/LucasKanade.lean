import Mathlib.Data.List.TakeWhile
import VioFrontend.DatasetLoader
import VioFrontend.Pipeline.Basic

/-!
# The test of the feature tracking

`test_with_dataset` of the Lucas-Kanade test reads two lines for every image but the last one: the
points to start from, and where they are in the next image. It keeps the lines in step with the
index of the images also where images fail to load, and it compares exactly the pairs of images of
which both load. What it logs for a pair depends on the two images, their lines and the totals of
the pairs before. It writes through a null pointer exactly when the image behind the last line fails
to load.

The index stays below the number of lines of the file and does not wrap around.
-/

namespace VioFrontend

namespace testLucasKanade

/-- Why a run does not end. -/
inductive Failure
  /-- a write through `line_ptr` when there is no line feed left -/
  | nullPointer
  /-- the `exit` on too many points -/
  | exit
  /-- a read of a point or a pixel that was not written -/
  | unwritten
  /-- an access outside of a buffer of the caller, or of a table of the constructor -/
  | outOfBounds
  /-- more turns than the fuel allows -/
  | timeout
  deriving DecidableEq

/-! ### Reading -/

def maxAmountOfReferencePoints : ℕ := 800

/-- `*line_ptr++ = '\0'` and `data_ptr = line_ptr`: the line, and the string behind it. -/
def takeLine (text : List UInt8) : Except Failure (List UInt8 × List UInt8) :=
  if 10 ∈ text then .ok (text.takeWhile (· ≠ 10), (text.dropWhile (· ≠ 10)).drop 1)
  else .error .nullPointer

/-- The entries of the buffer that are written. -/
def populateBufferFromDataEntry (data : List UInt8) : Except Failure (List ℤ) :=
  match Tokens.collect 44 CString.strtol (maxAmountOfReferencePoints * 2) data.length data [] with
  | none         => .error .exit
  | some entries => .ok entries

/-- The buffers of the caller; the two buffers of keypoints have the length `keypoints`, and
`keypointsBufferSize` is the number of features to track at most. -/
structure Buffers extends FrameBuffers where
  keypoints : ℕ
  keypointsBufferSize : ℕ

/-- The loop that sets the keypoints to the start points. It sets all of them, also those that are
not tracked. -/
def startKeypoints (buffers : Buffers) (start : List ℤ) (keypointsSize : ℕ)
    (keypoints : ℕ → KeyPoint) : Except Failure (ℕ → KeyPoint) :=
  if keypointsSize > buffers.keypoints then .error .outOfBounds
  else if 2 * keypointsSize ≤ start.length then
    .ok fun i =>
      if i < keypointsSize then ⟨⟨start.getD (2 * i) 0, start.getD (2 * i + 1) 0⟩, false⟩
      else keypoints i
  else .error .unwritten

/-- The first `width * height` bytes of an image, as an image of that size. -/
def copyImage (image : Raster) (width height : ℕ) : Except Failure Raster :=
  if image.width = width ∧ image.height = height then .ok image
  else if width * height ≤ image.width * image.height then
    .ok ⟨width, height, fun x y =>
      image.pixel ((y * width + x) % image.width) ((y * width + x) / image.width)⟩
  else .error .unwritten

/-- The copy of an image into the buffer and the constructor of its pyramid. -/
def pyramid (buffers : Buffers) (image : Raster) : Except Failure (ℕ → Raster) :=
  match framePyramid buffers.toFrameBuffers image with
  | none        => .error .outOfBounds
  | some levels => .ok levels

/-! ### Comparing -/

/-- The totals of all iterations; `error` is the sum of the squared distances of the features that
do not match. -/
structure Totals where
  totalFeaturesMatched : ℕ
  totalFeaturesTracked : ℕ
  totalReferenceFeatures : ℕ
  error : ℚ
  deriving DecidableEq

/-- The points printed for a feature; they are printed with `==` or `!=`, as the last two points
agree or not. -/
structure FeatureLine where
  startPoint : ℤ × ℤ
  endPoint : ℤ × ℤ
  referenceEndPoint : ℤ × ℤ
  deriving DecidableEq

/-- What is compared and logged in an iteration: the index of the first of the two images, the
lines of the features, the numbers of features tracked, of those that match and of the reference
points, and the totals after it, which the rates and the errors of the last line are computed
from. -/
structure Entry where
  index : ℕ
  features : List FeatureLine
  keypointsSize : ℕ
  matching : ℕ
  referencePointsSize : ℕ
  totals : Totals
  deriving DecidableEq

/-- What `test_with_dataset` updates. `text` is the string at `data_ptr`. The size of the previous
image is that of the last one that was loaded into the variable; its data may be newer. -/
structure Comparison extends Totals where
  text : List UInt8
  index : ℕ
  previousImage : Raster
  previousWidth : ℕ
  previousHeight : ℕ
  keypoints : ℕ → KeyPoint
  endKeypoints : ℕ → KeyPoint
  patches : PatchPyramid
  log : List Entry

/-- The test whether a tracked feature is where the reference has it. -/
def IsEndPoint (endPoints : List ℤ) (i : ℕ) (keypoint : KeyPoint) : Prop :=
  roundToInt keypoint.point.x = endPoints.getD (2 * i) 0 ∧
    roundToInt keypoint.point.y = endPoints.getD (2 * i + 1) 0

instance (endPoints : List ℤ) (i : ℕ) (keypoint : KeyPoint) :
    Decidable (IsEndPoint endPoints i keypoint) :=
  inferInstanceAs (Decidable (_ ∧ _))

/-- The turn of the loop over the tracked features, with the number of those that match and the sum
of the squared distances of the others. -/
def compareKeypoint (endKeypoints : ℕ → KeyPoint) (endPoints : List ℤ) (s : ℕ × ℚ) (i : ℕ) :
    ℕ × ℚ :=
  if IsEndPoint endPoints i (endKeypoints i) then (s.1 + 1, s.2)
  else
    let dx : ℚ := roundToInt (endKeypoints i).point.x - endPoints.getD (2 * i) 0
    let dy : ℚ := roundToInt (endKeypoints i).point.y - endPoints.getD (2 * i + 1) 0
    (s.1, s.2 + (dx * dx + dy * dy))

def compareKeypoints (endKeypoints : ℕ → KeyPoint) (keypointsSize : ℕ) (endPoints : List ℤ)
    (error : ℚ) : ℕ × ℚ :=
  (List.range keypointsSize).foldl (compareKeypoint endKeypoints endPoints) (0, error)

/-- The features are printed when the index of the current image is a multiple of ten. -/
def featureLines (index : ℕ) (start endPoints : List ℤ) (endKeypoints : ℕ → KeyPoint)
    (keypointsSize : ℕ) : List FeatureLine :=
  if index % 10 = 0 then
    (List.range keypointsSize).map fun i =>
      { startPoint := (start.getD (2 * i) 0, start.getD (2 * i + 1) 0)
        endPoint := (roundToInt (endKeypoints i).point.x, roundToInt (endKeypoints i).point.y)
        referenceEndPoint := (endPoints.getD (2 * i) 0, endPoints.getD (2 * i + 1) 0) }
  else []

/-- Track the keypoints into the current image and compare them with the end points. -/
def compareImages (buffers : Buffers) (current : Raster) (keypointsSize : ℕ)
    (start endPoints : List ℤ) (s : Comparison) : Except Failure Comparison := do
  let imagePyramid ← pyramid buffers current
  let endKeypoints := trackFeatures lucasKanade s.patches imagePyramid s.keypoints s.endKeypoints
    keypointsSize
  let features := featureLines (s.index + 1) start endPoints endKeypoints keypointsSize
  let (matching, error) := compareKeypoints endKeypoints keypointsSize endPoints s.error
  let totals : Totals :=
    { totalFeaturesMatched := s.totalFeaturesMatched + matching
      totalFeaturesTracked := s.totalFeaturesTracked + keypointsSize
      totalReferenceFeatures := s.totalReferenceFeatures + endPoints.length / 2
      error }
  return { s with
    toTotals := totals
    index := s.index + 1
    previousImage := current
    endKeypoints
    log := s.log ++ [⟨s.index, features, keypointsSize, matching, endPoints.length / 2, totals⟩] }

/-- Both lines of a pair are skipped. -/
def skipLines (text : List UInt8) : Except Failure (List UInt8) := do
  let (_, text) ← takeLine text
  let (_, text) ← takeLine text
  return text

/-- The loop that looks for the next image that loads and skips the two lines of the others. -/
def skipLoop (dataset : Dataset) :
    ℕ → ℕ → List UInt8 → Except Failure (Raster × ℕ × List UInt8)
  | fuel, index, text =>
    match (datasetLoader.retrieveImage dataset index 1).1 with
    | some image => .ok (image, index, text)
    | none       =>
      match fuel with
      | 0        => .error .timeout
      | fuel + 1 => do
        let text ← skipLines text
        skipLoop dataset fuel (index + 1) text

/-- Read the two lines of a pair of images and construct the patches in the first one. With the new
state come the number of keypoints, the start points and the end points. -/
def readReference (buffers : Buffers) (s : Comparison) :
    Except Failure (Comparison × ℕ × List ℤ × List ℤ) := do
  let (line, text) ← takeLine s.text
  let start ← populateBufferFromDataEntry line
  let (line, text) ← takeLine text
  let endPoints ← populateBufferFromDataEntry line
  let keypoints ← startKeypoints buffers start (endPoints.length / 2) s.keypoints
  let image ← copyImage s.previousImage s.previousWidth s.previousHeight
  let imagePyramid ← pyramid buffers image
  let keypointsSize := min (endPoints.length / 2) buffers.keypointsBufferSize
  match s.patches.construct imagePyramid keypoints keypointsSize with
  | none         => .error .exit
  | some patches => .ok ({ s with text, keypoints, patches }, keypointsSize, start, endPoints)

/-- After an image that fails to load: skip the lines of the next pair, and go on from the next
image that loads. -/
def skipImage (dataset : Dataset) (fuel : ℕ) (s : Comparison) : Except Failure Comparison := do
  let text ← skipLines s.text
  let (image, index, text) ← skipLoop dataset fuel (s.index + 2) text
  return { s with
    text
    index
    previousImage := image
    previousWidth := image.width
    previousHeight := image.height }

/-- The loop of `test_with_dataset`. -/
def compareLoop (dataset : Dataset) (buffers : Buffers) :
    ℕ → Comparison → Except Failure Comparison
  | fuel, s =>
    if 10 ∈ s.text then
      match fuel with
      | 0        => .error .timeout
      | fuel + 1 => do
        let (s, keypointsSize, start, endPoints) ← readReference buffers s
        let s ← match (datasetLoader.retrieveImage dataset (s.index + 1) 1).1 with
          | none         => skipImage dataset fuel s
          | some current => compareImages buffers current keypointsSize start endPoints s
        compareLoop dataset buffers fuel s
    else .ok s

/-- `test_with_dataset` on a file with the given content; `none` is the return when the first image
fails to load. -/
def testWithDataset (dataset : Dataset) (buffers : Buffers)
    (keypoints endKeypoints : ℕ → KeyPoint) (patches : PatchPyramid) (content : List UInt8) :
    Except Failure (Option Comparison) :=
  let text := content.takeWhile (· ≠ 0)
  match (datasetLoader.retrieveImage dataset 1 datasetLoader.initialise).1 with
  | none       => .ok none
  | some image => some <$> compareLoop dataset buffers text.length
    { totalFeaturesMatched := 0
      totalFeaturesTracked := 0
      totalReferenceFeatures := 0
      error := 0
      text
      index := 1
      previousImage := image
      previousWidth := image.width
      previousHeight := image.height
      keypoints
      endKeypoints
      patches
      log := [] }

/-! ### The lines of a file -/

/-- The two lines for a pair of images, and the points that they hold. -/
structure Reference where
  startLine : List UInt8
  endLine : List UInt8
  start : List ℤ
  endPoints : List ℤ
  feed_notMem : 10 ∉ startLine ∧ 10 ∉ endLine
  zero_notMem : 0 ∉ startLine ∧ 0 ∉ endLine
  readStart : populateBufferFromDataEntry startLine = .ok start
  readEnd : populateBufferFromDataEntry endLine = .ok endPoints
  enough : 2 * (endPoints.length / 2) ≤ start.length

def Reference.text (r : Reference) : List UInt8 := r.startLine ++ 10 :: (r.endLine ++ [10])

def fileContent (references : List Reference) : List UInt8 := references.flatMap Reference.text

lemma takeLine_line {line : List UInt8} (h : 10 ∉ line) (rest : List UInt8) :
    takeLine (line ++ 10 :: rest) = .ok (line, rest) := by
  have hall : ∀ c ∈ line, decide (c ≠ 10) = true := by
    intro c hc
    simpa using ne_of_mem_of_not_mem hc h
  have hfeed : 10 ∈ line ++ 10 :: rest := List.mem_append_right _ List.mem_cons_self
  rw [takeLine, if_pos hfeed, List.takeWhile_append_of_pos hall,
    List.dropWhile_append_of_pos hall, List.takeWhile_cons_of_neg (by decide),
    List.dropWhile_cons_of_neg (by decide), List.append_nil]
  rfl

lemma fileContent_cons (r : Reference) (references : List Reference) :
    fileContent (r :: references)
      = r.startLine ++ 10 :: (r.endLine ++ 10 :: fileContent references) := by
  simp [fileContent, Reference.text]

lemma skipLines_cons (r : Reference) (references : List Reference) :
    skipLines (fileContent (r :: references)) = .ok (fileContent references) := by
  rw [fileContent_cons, skipLines, takeLine_line r.feed_notMem.1]
  simp only [bind, Except.bind, takeLine_line r.feed_notMem.2]
  rfl

/-! ### One pair of images -/

/-- Where the feature at a pixel of an image is tracked to in the next one. -/
def trackedPoint (image current : Raster) (px py : ℤ) : KeyPoint :=
  trackedKeypoint ⟨(px - 3 : ℤ), (py - 3 : ℤ)⟩
    (featureDisplacement lucasKanade current.level fun L =>
      Patch.ofImage ((px - 3) >>> L : ℤ) ((py - 3) >>> L : ℤ) (image.level L)) (current.level 0)

/-- What a feature adds to the error. -/
def squaredDistance (endPoints : List ℤ) (i : ℕ) (keypoint : KeyPoint) : ℚ :=
  if IsEndPoint endPoints i keypoint then 0
  else
    let dx : ℚ := roundToInt keypoint.point.x - endPoints.getD (2 * i) 0
    let dy : ℚ := roundToInt keypoint.point.y - endPoints.getD (2 * i + 1) 0
    dx * dx + dy * dy

/-- What is logged for two images, after the totals of those before. -/
def entry (keypointsBufferSize index : ℕ) (image current : Raster) (r : Reference)
    (totals : Totals) : Entry :=
  let referencePointsSize := r.endPoints.length / 2
  let keypointsSize := min referencePointsSize keypointsBufferSize
  let tracked (i : ℕ) :=
    trackedPoint image current (r.start.getD (2 * i) 0) (r.start.getD (2 * i + 1) 0)
  let matching := (List.range keypointsSize).countP fun i => IsEndPoint r.endPoints i (tracked i)
  let error := ((List.range keypointsSize).map fun i =>
    squaredDistance r.endPoints i (tracked i)).sum
  { index
    features := featureLines (index + 1) r.start r.endPoints tracked keypointsSize
    keypointsSize
    matching
    referencePointsSize
    totals :=
      { totalFeaturesMatched := totals.totalFeaturesMatched + matching
        totalFeaturesTracked := totals.totalFeaturesTracked + keypointsSize
        totalReferenceFeatures := totals.totalReferenceFeatures + referencePointsSize
        error := totals.error + error } }

lemma compareKeypoints_eq (endKeypoints : ℕ → KeyPoint) (keypointsSize : ℕ) (endPoints : List ℤ)
    (error : ℚ) :
    compareKeypoints endKeypoints keypointsSize endPoints error
      = ((List.range keypointsSize).countP fun i => IsEndPoint endPoints i (endKeypoints i),
        error + ((List.range keypointsSize).map fun i =>
          squaredDistance endPoints i (endKeypoints i)).sum) := by
  induction keypointsSize with
  | zero => simp [compareKeypoints]
  | succ n ih =>
    rw [compareKeypoints] at ih ⊢
    rw [List.range_succ, List.foldl_append, ih, List.countP_append, List.map_append,
      List.sum_append, List.foldl_cons, List.foldl_nil, List.countP_singleton, List.map_singleton,
      List.sum_singleton, ← add_assoc]
    by_cases hmatch : IsEndPoint endPoints n (endKeypoints n)
    · simp only [compareKeypoint, squaredDistance, hmatch, decide_true, if_true, add_zero]
    · simp only [compareKeypoint, squaredDistance, hmatch, decide_false, Bool.false_eq_true,
        if_false, Nat.add_zero]

lemma featureLines_congr {index keypointsSize : ℕ} {start endPoints : List ℤ}
    {endKeypoints tracked : ℕ → KeyPoint} (h : ∀ i < keypointsSize, endKeypoints i = tracked i) :
    featureLines index start endPoints endKeypoints keypointsSize
      = featureLines index start endPoints tracked keypointsSize := by
  rw [featureLines, featureLines]
  split_ifs
  · refine List.map_congr_left fun i hi => ?_
    rw [h i (List.mem_range.mp hi)]
  · rfl

/-- Images of one size, which the buffers and the constructor can take. -/
structure Suitable (dataset : Dataset) (buffers : Buffers) (width height : ℕ) : Prop where
  columns : 16 ≤ width
  rows : 32 ≤ height
  capacity : buffers.keypointsBufferSize ≤ maxNumberOfPatchesInPyramidLevel
  image : ∀ j image, dataset (datasetLoader.fileName j) = some image →
    (image.width = width ∧ image.height = height) ∧ buffers.Fit image

variable {dataset : Dataset} {buffers : Buffers} {width height : ℕ}

/-- The levels of an image that loads. -/
lemma Suitable.pyramid (h : Suitable dataset buffers width height) {j : ℕ} {image : Raster}
    (himage : dataset (datasetLoader.fileName j) = some image) :
    ∃ levels, pyramid buffers image = .ok levels ∧
      (∀ L < 5, (image.level L).SamePixels (levels L)) ∧
      ∀ L < 5, 0 < (image.level L).width ∧ 0 < (image.level L).height := by
  obtain ⟨⟨hwidth, hheight⟩, hfit⟩ := h.image j image himage
  have hcolumns := h.columns
  have hrows := h.rows
  obtain ⟨levels, hlevels, hsame⟩ := framePyramid_spec hfit (hheight ▸ hrows)
  refine ⟨levels, ?_, hsame, fun L hL => Raster.level_pos (by omega) hL⟩
  rw [testLucasKanade.pyramid, hlevels]

/-- The state in which the loop is ready for the image with the index of the state. -/
structure AtImage (dataset : Dataset) (width height : ℕ) (s : Comparison) : Prop where
  image : dataset (datasetLoader.fileName s.index) = some s.previousImage
  width : s.previousWidth = width
  height : s.previousHeight = height

/-- The start points of a pair, and the patches around them. -/
structure Started (image : Raster) (r : Reference) (keypointsSize : ℕ) (s : Comparison) :
    Prop where
  keypoint : ∀ i < keypointsSize,
    s.keypoints i = ⟨⟨r.start.getD (2 * i) 0, r.start.getD (2 * i + 1) 0⟩, false⟩
  patch : ∀ i < keypointsSize, ∀ L < 5,
    s.patches i L = Patch.ofImage ((r.start.getD (2 * i) 0 - 3) >>> L : ℤ)
      ((r.start.getD (2 * i + 1) 0 - 3) >>> L : ℤ) (image.level L)

/-- The lines of a pair are read, and the patches are those around the start points. -/
lemma readReference_cons (h : Suitable dataset buffers width height) (r : Reference)
    (references : List Reference) (hpoints : r.endPoints.length / 2 ≤ buffers.keypoints)
    {s : Comparison} (hs : s.text = fileContent (r :: references))
    (himage : AtImage dataset width height s) :
    ∃ keypoints patches,
      readReference buffers s
        = .ok ({ s with text := fileContent references, keypoints, patches },
            min (r.endPoints.length / 2) buffers.keypointsBufferSize, r.start, r.endPoints) ∧
      Started s.previousImage r (min (r.endPoints.length / 2) buffers.keypointsBufferSize)
        { s with text := fileContent references, keypoints, patches } := by
  let keypoints : ℕ → KeyPoint := fun i =>
    if i < r.endPoints.length / 2 then
      ⟨⟨r.start.getD (2 * i) 0, r.start.getD (2 * i + 1) 0⟩, false⟩
    else s.keypoints i
  have hstart : startKeypoints buffers r.start (r.endPoints.length / 2) s.keypoints
      = .ok keypoints := by
    rw [startKeypoints, if_neg (not_lt.mpr hpoints), if_pos r.enough]
  obtain ⟨⟨hwidth, hheight⟩, -⟩ := h.image _ _ himage.image
  have hcopy : copyImage s.previousImage s.previousWidth s.previousHeight
      = .ok s.previousImage :=
    if_pos ⟨hwidth.trans himage.width.symm, hheight.trans himage.height.symm⟩
  obtain ⟨levels, hlevels, hsame, hpos⟩ := h.pyramid himage.image
  have hfits : ¬ maxNumberOfPatchesInPyramidLevel
      < min (r.endPoints.length / 2) buffers.keypointsBufferSize :=
    not_lt.mpr ((min_le_right _ _).trans h.capacity)
  have hne : s.patches.construct levels keypoints
      (min (r.endPoints.length / 2) buffers.keypointsBufferSize) ≠ none :=
    mt PatchPyramid.construct_eq_none.mp hfits
  obtain ⟨patches, hpatches⟩ := Option.ne_none_iff_exists'.mp hne
  have hkeypoint : ∀ i < min (r.endPoints.length / 2) buffers.keypointsBufferSize,
      keypoints i = ⟨⟨r.start.getD (2 * i) 0, r.start.getD (2 * i + 1) 0⟩, false⟩ :=
    fun i hi => if_pos (lt_min_iff.mp hi).1
  refine ⟨keypoints, patches, ?_, hkeypoint, fun i hi L hL => ?_⟩
  · rw [readReference, hs, fileContent_cons]
    simp only [takeLine_line r.feed_notMem.1, takeLine_line r.feed_notMem.2, r.readStart, r.readEnd,
      hstart, hcopy, hlevels, hpatches, bind, Except.bind]
  · have hfresh := hkeypoint i hi
    rw [← (hsame L hL).patch (hpos L hL)]
    exact PatchPyramid.construct_fresh hpatches hi hL (by rw [hfresh]) (by rw [hfresh])

/-- A solve reads the next image through its patches only. -/
lemma levelDisplacement_samePixels {image image' : Raster} (h : image.SamePixels image')
    (hpos : 0 < image.width ∧ 0 < image.height) (p : Patch) (incoming : Option Vec2) :
    levelDisplacement p image' incoming = levelDisplacement p image incoming := by
  have hnext : ∀ v, nextPatch p image' v = nextPatch p image v := fun v => h.patch hpos _ _
  have hloop : ∀ Sinv incoming iterations norm flow,
      minimise p image' incoming Sinv iterations norm flow
        = minimise p image incoming Sinv iterations norm flow := by
    intro Sinv incoming iterations
    induction iterations with
    | zero =>
      intro norm flow
      rw [minimise.eq_def, minimise.eq_def]
      simp only [hnext]
    | succ iterations ih =>
      intro norm flow
      rw [minimise.eq_def, minimise.eq_def]
      simp only [hnext]
      cases Sinv with
      | none => rfl
      | some Sinv => simp only [ih]
  simp only [levelDisplacement, hloop]

/-- Tracking into the next image and comparing logs the entry of the pair. -/
lemma compareImages_entry (h : Suitable dataset buffers width height) {image current : Raster}
    {r : Reference} {s : Comparison} {j : ℕ}
    (hcurrent : dataset (datasetLoader.fileName j) = some current)
    (hstarted : Started image r (min (r.endPoints.length / 2) buffers.keypointsBufferSize) s) :
    ∃ s', compareImages buffers current (min (r.endPoints.length / 2) buffers.keypointsBufferSize)
        r.start r.endPoints s = .ok s' ∧
      s'.log = s.log ++ [entry buffers.keypointsBufferSize s.index image current r s.toTotals] ∧
      s'.toTotals = (entry buffers.keypointsBufferSize s.index image current r s.toTotals).totals ∧
      (s'.index = s.index + 1 ∧ s'.previousImage = current) ∧
      (s'.text = s.text ∧ s'.previousWidth = s.previousWidth ∧
        s'.previousHeight = s.previousHeight) := by
  obtain ⟨levels, hlevels, hsame, hpos⟩ := h.pyramid hcurrent
  have htracked : ∀ i < min (r.endPoints.length / 2) buffers.keypointsBufferSize,
      trackFeatures lucasKanade s.patches levels s.keypoints s.endKeypoints
          (min (r.endPoints.length / 2) buffers.keypointsBufferSize) i
        = trackedPoint image current (r.start.getD (2 * i) 0) (r.start.getD (2 * i + 1) 0) := by
    intro i hi
    have hkeypoint := hstarted.keypoint i hi
    have hpatch := hstarted.patch i hi
    have hdisplacement : featureDisplacement lucasKanade levels (s.patches i)
        = featureDisplacement lucasKanade current.level fun L =>
            Patch.ofImage ((r.start.getD (2 * i) 0 - 3) >>> L : ℤ)
              ((r.start.getD (2 * i + 1) 0 - 3) >>> L : ℤ) (image.level L) := by
      refine featureDisplacement_congr fun L hL incoming => ?_
      rw [hpatch L hL]
      exact levelDisplacement_samePixels (hsame L hL) (hpos L hL) _ incoming
    rw [trackFeatures_of_reached hi (by rw [hkeypoint])
      fun L _ => reached_of_not_rejects (fun _ => rfl) i L, hdisplacement, hpatch 0 (by decide),
      Int.shiftRight_zero, Int.shiftRight_zero]
    simp only [trackedKeypoint, (hsame 0 (by decide)).width, (hsame 0 (by decide)).height]
    rfl
  have hfeatures : featureLines (s.index + 1) r.start r.endPoints
        (trackFeatures lucasKanade s.patches levels s.keypoints s.endKeypoints
          (min (r.endPoints.length / 2) buffers.keypointsBufferSize))
        (min (r.endPoints.length / 2) buffers.keypointsBufferSize)
      = (entry buffers.keypointsBufferSize s.index image current r s.toTotals).features :=
    featureLines_congr htracked
  have hcount : (List.range (min (r.endPoints.length / 2) buffers.keypointsBufferSize)).countP
        (fun i => IsEndPoint r.endPoints i (trackFeatures lucasKanade s.patches levels
          s.keypoints s.endKeypoints (min (r.endPoints.length / 2) buffers.keypointsBufferSize) i))
      = (entry buffers.keypointsBufferSize s.index image current r s.toTotals).matching := by
    refine List.countP_congr fun i hi => ?_
    rw [htracked i (List.mem_range.mp hi)]
  have herror : (List.range (min (r.endPoints.length / 2) buffers.keypointsBufferSize)).map
        (fun i => squaredDistance r.endPoints i (trackFeatures lucasKanade s.patches levels
          s.keypoints s.endKeypoints (min (r.endPoints.length / 2) buffers.keypointsBufferSize) i))
      = (List.range (min (r.endPoints.length / 2) buffers.keypointsBufferSize)).map fun i =>
          squaredDistance r.endPoints i (trackedPoint image current (r.start.getD (2 * i) 0)
            (r.start.getD (2 * i + 1) 0)) := by
    refine List.map_congr_left fun i hi => ?_
    rw [htracked i (List.mem_range.mp hi)]
  simp only [compareImages, hlevels, bind, Except.bind, compareKeypoints_eq, hfeatures, hcount,
    herror]
  exact ⟨_, rfl, rfl, rfl, ⟨rfl, rfl⟩, rfl, rfl, rfl⟩

/-! ### The loops -/

/-- What is logged for the pairs of images from an index on, of which both load. -/
def compared (dataset : Dataset) (keypointsBufferSize : ℕ) :
    Totals → ℕ → List Reference → List Entry
  | _, _, []                       => []
  | totals, index, r :: references =>
    match dataset (datasetLoader.fileName index), dataset (datasetLoader.fileName (index + 1)) with
    | some image, some current =>
      let logged := entry keypointsBufferSize index image current r totals
      logged :: compared dataset keypointsBufferSize logged.totals (index + 1) references
    | _, _ => compared dataset keypointsBufferSize totals (index + 1) references

/-- Nothing is compared where the first image does not load. -/
lemma compared_append (keypointsBufferSize : ℕ) {skipped : List Reference} (rest : List Reference)
    (totals : Totals) {index : ℕ} (h : ∀ j, index ≤ j → j < index + skipped.length →
      dataset (datasetLoader.fileName j) = none) :
    compared dataset keypointsBufferSize totals index (skipped ++ rest)
      = compared dataset keypointsBufferSize totals (index + skipped.length) rest := by
  induction skipped generalizing index with
  | nil => rfl
  | cons r skipped ih =>
    have hnone := h index le_rfl (by rw [List.length_cons]; omega)
    rw [List.cons_append, compared, hnone]
    simp only
    rw [ih fun j hj hj' => h j (by omega) (by rw [List.length_cons]; omega), List.length_cons,
      Nat.add_right_comm, Nat.add_assoc]

/-- The loop comes to an image that loads, with the lines of those before it skipped, or it runs
out of lines. -/
lemma skipLoop_spec (dataset : Dataset) (references : List Reference) (fuel index : ℕ)
    (hfuel : references.length < fuel) :
    (∃ skipped rest image, references = skipped ++ rest ∧
      (∀ j, index ≤ j → j < index + skipped.length →
        dataset (datasetLoader.fileName j) = none) ∧
      dataset (datasetLoader.fileName (index + skipped.length)) = some image ∧
      skipLoop dataset fuel index (fileContent references)
        = .ok (image, index + skipped.length, fileContent rest)) ∨
    (dataset (datasetLoader.fileName (index + references.length)) = none ∧
      skipLoop dataset fuel index (fileContent references) = .error .nullPointer) := by
  induction references generalizing fuel index with
  | nil =>
    obtain ⟨fuel, rfl⟩ := Nat.exists_eq_add_of_le' (Nat.one_le_of_lt hfuel)
    rw [skipLoop.eq_def]
    simp only [datasetLoader.retrieveImage_index]
    cases hload : dataset (datasetLoader.fileName index) with
    | some image =>
      refine Or.inl ⟨[], [], image, rfl, fun j hj hj' => ?_, hload, rfl⟩
      rw [List.length_nil] at hj'
      omega
    | none => exact Or.inr ⟨rfl, rfl⟩
  | cons r references ih =>
    obtain ⟨fuel, rfl⟩ := Nat.exists_eq_add_of_le' (Nat.one_le_of_lt hfuel)
    rw [List.length_cons] at hfuel
    rw [skipLoop.eq_def]
    simp only [datasetLoader.retrieveImage_index]
    cases hload : dataset (datasetLoader.fileName index) with
    | some image =>
      refine Or.inl ⟨[], r :: references, image, rfl, fun j hj hj' => ?_, hload, rfl⟩
      rw [List.length_nil] at hj'
      omega
    | none =>
      simp only [skipLines_cons, bind, Except.bind]
      have hadd : index + 1 + references.length = index + (references.length + 1) := by omega
      rcases ih fuel (index + 1) (by omega) with
        ⟨skipped, rest, image, rfl, hskipped, himage, hrun⟩ | ⟨hlast, hrun⟩
      · refine Or.inl ⟨r :: skipped, rest, image, rfl, fun j hj hj' => ?_, ?_, ?_⟩
        · rcases hj.eq_or_lt with rfl | hlt
          · exact hload
          · rw [List.length_cons] at hj'
            exact hskipped j hlt (by omega)
        · rwa [List.length_cons, Nat.add_comm skipped.length, ← Nat.add_assoc]
        · rw [hrun, List.length_cons, Nat.add_comm skipped.length, ← Nat.add_assoc]
      · refine Or.inr ⟨?_, hrun⟩
        rwa [List.length_cons, ← hadd]

/-- The totals of the last entry that was logged. -/
def lastTotals (log : List Entry) : Totals := (log.getLast?.map Entry.totals).getD ⟨0, 0, 0, 0⟩

lemma lastTotals_concat (log : List Entry) (e : Entry) : lastTotals (log ++ [e]) = e.totals := by
  rw [lastTotals, List.getLast?_concat, Option.map_some, Option.getD_some]

/-- The image behind the last line loads; without lines there is nothing to load. -/
def LastLoads (dataset : Dataset) (index : ℕ) (references : List Reference) : Prop :=
  references = [] ∨
    (dataset (datasetLoader.fileName (index + references.length))).isSome = true

/-- How the loop ends. -/
structure Ends (dataset : Dataset) (keypointsBufferSize : ℕ) (references : List Reference)
    (s : Comparison) (result : Except Failure Comparison) : Prop where
  finished : LastLoads dataset s.index references →
    ∃ s', result = .ok s' ∧
      s'.log = s.log ++ compared dataset keypointsBufferSize s.toTotals s.index references ∧
      s'.toTotals = lastTotals s'.log
  crashed : ¬ LastLoads dataset s.index references → result = .error .nullPointer

lemma feed_mem (r : Reference) (references : List Reference) :
    10 ∈ fileContent (r :: references) := by
  rw [fileContent_cons]
  exact List.mem_append_right _ List.mem_cons_self

/-- What is left to load is the same after lines that lead to an image that loads. -/
lemma lastLoads_append (skipped rest : List Reference) {index : ℕ} {image : Raster}
    (himage : dataset (datasetLoader.fileName (index + skipped.length)) = some image) :
    LastLoads dataset index (skipped ++ rest) ↔
      LastLoads dataset (index + skipped.length) rest := by
  rw [LastLoads, LastLoads, List.length_append, ← Nat.add_assoc]
  cases rest with
  | nil => simp [himage]
  | cons r rest => simp

/-- The state is ready for the image with its index and the lines from `references` on. -/
structure Ready (dataset : Dataset) (width height : ℕ) (references : List Reference)
    (s : Comparison) : Prop extends AtImage dataset width height s where
  text : s.text = fileContent references
  totals : s.toTotals = lastTotals s.log

/-- A turn of the loop that uses up the lines `taken`. -/
structure Turn (dataset : Dataset) (width height keypointsBufferSize : ℕ)
    (taken rest : List Reference) (s s' : Comparison) : Prop
    extends Ready dataset width height rest s' where
  index : s'.index = s.index + taken.length
  log : s'.log ++ compared dataset keypointsBufferSize s'.toTotals s'.index rest
    = s.log ++ compared dataset keypointsBufferSize s.toTotals s.index (taken ++ rest)

/-- The turn when the next image loads. -/
lemma compareLoop_loaded (hsuitable : Suitable dataset buffers width height) (fuel : ℕ)
    {r : Reference} {references : List Reference} {s : Comparison}
    (hpoints : r.endPoints.length / 2 ≤ buffers.keypoints)
    (h : Ready dataset width height (r :: references) s) {current : Raster}
    (hload : dataset (datasetLoader.fileName (s.index + 1)) = some current) :
    ∃ s', compareLoop dataset buffers (fuel + 1) s = compareLoop dataset buffers fuel s' ∧
      Turn dataset width height buffers.keypointsBufferSize [r] references s s' := by
  obtain ⟨keypoints, patches, hread, hstarted⟩ :=
    readReference_cons hsuitable r references hpoints h.text h.toAtImage
  obtain ⟨s', hcompare, hlog, htotals, ⟨hindex, hprevious⟩, htext, hwidth, hheight⟩ :=
    compareImages_entry hsuitable hload hstarted
  have hretrieve : (datasetLoader.retrieveImage dataset (s.index + 1) 1).1 = some current :=
    (datasetLoader.retrieveImage_index dataset (s.index + 1) 1).trans hload
  have hsome : 10 ∈ s.text := h.text ▸ feed_mem r references
  have hlast : s'.toTotals = lastTotals s'.log := by rw [hlog, htotals, lastTotals_concat]
  refine ⟨s', ?_, ⟨⟨⟨?_, hwidth.trans h.width, hheight.trans h.height⟩, htext, hlast⟩, hindex,
    ?_⟩⟩
  · rw [compareLoop.eq_def]
    simp only [if_pos hsome, hread, bind, Except.bind, hretrieve, hcompare]
  · rw [hindex, hprevious]
    exact hload
  · have hcompared : compared dataset buffers.keypointsBufferSize s.toTotals s.index
          (r :: references)
        = entry buffers.keypointsBufferSize s.index s.previousImage current r s.toTotals
          :: compared dataset buffers.keypointsBufferSize (entry buffers.keypointsBufferSize
              s.index s.previousImage current r s.toTotals).totals (s.index + 1) references := by
      rw [compared, h.image, hload]
    rw [List.singleton_append, hcompared, hlog, htotals, hindex, List.append_assoc]
    rfl

/-- The turn when it does not: the lines up to those for the next image that loads are skipped. -/
lemma compareLoop_missing (hsuitable : Suitable dataset buffers width height) {fuel : ℕ}
    {r : Reference} {references : List Reference} {s : Comparison}
    (hfuel : references.length ≤ fuel) (hpoints : r.endPoints.length / 2 ≤ buffers.keypoints)
    (h : Ready dataset width height (r :: references) s)
    (hload : dataset (datasetLoader.fileName (s.index + 1)) = none) :
    (∃ taken rest s', r :: references = taken ++ rest ∧ taken ≠ [] ∧
      compareLoop dataset buffers (fuel + 1) s = compareLoop dataset buffers fuel s' ∧
      Turn dataset width height buffers.keypointsBufferSize taken rest s s') ∨
    (dataset (datasetLoader.fileName (s.index + (r :: references).length)) = none ∧
      compareLoop dataset buffers (fuel + 1) s = .error .nullPointer) := by
  obtain ⟨keypoints, patches, hread, -⟩ :=
    readReference_cons hsuitable r references hpoints h.text h.toAtImage
  have hretrieve : (datasetLoader.retrieveImage dataset (s.index + 1) 1).1 = none :=
    (datasetLoader.retrieveImage_index dataset (s.index + 1) 1).trans hload
  have hsome : 10 ∈ s.text := h.text ▸ feed_mem r references
  rw [compareLoop.eq_def]
  simp only [if_pos hsome, hread, bind, Except.bind, hretrieve]
  cases references with
  | nil => exact Or.inr ⟨hload, rfl⟩
  | cons r' references =>
    simp only [skipImage, skipLines_cons, bind, Except.bind]
    rcases skipLoop_spec dataset references fuel (s.index + 2) hfuel with
      ⟨skipped, rest, image, rfl, hskipped, hfound, hrun⟩ | ⟨hnone, hrun⟩
    · have hlength : s.index + 2 + skipped.length = s.index + (r :: r' :: skipped).length := by
        simp only [List.length_cons]
        omega
      have hmissing : ∀ j, s.index + 1 ≤ j → j < s.index + 1 + (r' :: skipped).length →
          dataset (datasetLoader.fileName j) = none := by
        intro j hj hj'
        rcases hj.eq_or_lt with rfl | hlt
        · exact hload
        · rw [List.length_cons] at hj'
          exact hskipped j hlt (by omega)
      obtain ⟨⟨himgw, himgh⟩, -⟩ := hsuitable.image _ _ hfound
      refine Or.inl ⟨r :: r' :: skipped, rest, { s with
          text := fileContent rest
          index := s.index + 2 + skipped.length
          previousImage := image
          previousWidth := image.width
          previousHeight := image.height
          keypoints
          patches }, rfl, List.cons_ne_nil _ _, ?_,
        ⟨⟨⟨hfound, himgw, himgh⟩, rfl, h.totals⟩, hlength, ?_⟩⟩
      · simp only [hrun]
        rfl
      · have happend := compared_append buffers.keypointsBufferSize rest s.toTotals hmissing
        rw [List.cons_append, compared, h.image, hload]
        simp only [happend, List.length_cons]
        congr 2
        omega
    · refine Or.inr ⟨?_, ?_⟩
      · have hlength : s.index + 2 + references.length
            = s.index + (r :: r' :: references).length := by
          simp only [List.length_cons]
          omega
        rwa [← hlength]
      · simp only [hrun]

/-- Without lines the loop ends. -/
lemma compareLoop_nil (fuel : ℕ) {s : Comparison} (h : Ready dataset width height [] s) :
    Ends dataset buffers.keypointsBufferSize [] s (compareLoop dataset buffers fuel s) := by
  have hnone : 10 ∉ s.text := h.text ▸ List.not_mem_nil
  rw [compareLoop.eq_def]
  simp only [if_neg hnone]
  refine ⟨fun _ => ⟨s, rfl, ?_, h.totals⟩, fun h => absurd (Or.inl rfl) h⟩
  rw [compared, List.append_nil]

lemma compareLoop_spec (hsuitable : Suitable dataset buffers width height)
    (references : List Reference) (fuel : ℕ) {s : Comparison} (hfuel : references.length ≤ fuel)
    (hpoints : ∀ r ∈ references, r.endPoints.length / 2 ≤ buffers.keypoints)
    (h : Ready dataset width height references s) :
    Ends dataset buffers.keypointsBufferSize references s (compareLoop dataset buffers fuel s) := by
  induction fuel generalizing references s with
  | zero =>
    obtain rfl := List.length_eq_zero_iff.mp (Nat.le_zero.mp hfuel)
    exact compareLoop_nil 0 h
  | succ fuel ih =>
    cases references with
    | nil => exact compareLoop_nil _ h
    | cons r references =>
      have hfuel := Nat.le_of_succ_le_succ hfuel
      have hr := hpoints r List.mem_cons_self
      -- the turn uses up some lines, or it crashes
      have hturn : (∃ taken rest s', r :: references = taken ++ rest ∧ taken ≠ [] ∧
            compareLoop dataset buffers (fuel + 1) s = compareLoop dataset buffers fuel s' ∧
            Turn dataset width height buffers.keypointsBufferSize taken rest s s') ∨
          (dataset (datasetLoader.fileName (s.index + (r :: references).length)) = none ∧
            compareLoop dataset buffers (fuel + 1) s = .error .nullPointer) := by
        cases hload : dataset (datasetLoader.fileName (s.index + 1)) with
        | none => exact compareLoop_missing hsuitable hfuel hr h hload
        | some current =>
          obtain ⟨s', hrun, hturn⟩ := compareLoop_loaded hsuitable fuel hr h hload
          exact Or.inl ⟨[r], references, s', rfl, List.cons_ne_nil _ _, hrun, hturn⟩
      rcases hturn with ⟨taken, rest, s', hlines, htaken, hrun, hturn⟩ | ⟨hnone, hrun⟩
      · have hshorter : rest.length ≤ fuel := by
          have hpos := List.length_pos_of_ne_nil htaken
          have hlength := congrArg List.length hlines
          simp only [List.length_cons, List.length_append] at hlength
          omega
        have hrest : ∀ r ∈ rest, r.endPoints.length / 2 ≤ buffers.keypoints := by
          intro r hmem
          exact hpoints r (hlines ▸ List.mem_append_right _ hmem)
        obtain ⟨hfinished, hcrashed⟩ := ih rest hshorter hrest hturn.toReady
        have hlast : LastLoads dataset s.index (r :: references) ↔
            LastLoads dataset s'.index rest := by
          rw [hlines, hturn.index]
          exact lastLoads_append taken rest (hturn.index ▸ hturn.image)
        rw [hrun]
        refine ⟨fun hloads => ?_, fun hloads => hcrashed (mt hlast.mpr hloads)⟩
        rw [hlines, ← hturn.log]
        exact hfinished (hlast.mp hloads)
      · rw [hrun]
        refine ⟨?_, fun _ => rfl⟩
        rintro (hloads | hloads)
        · exact absurd hloads (List.cons_ne_nil _ _)
        · rw [hnone] at hloads
          exact absurd hloads Bool.false_ne_true

lemma zero_notMem_fileContent (references : List Reference) : 0 ∉ fileContent references := by
  induction references with
  | nil => exact List.not_mem_nil
  | cons r references ih =>
    obtain ⟨hstart, hend⟩ := r.zero_notMem
    rw [fileContent_cons]
    simp [hstart, hend, ih]

lemma length_le_fileContent (references : List Reference) :
    references.length ≤ (fileContent references).length := by
  induction references with
  | nil => exact Nat.zero_le _
  | cons r references ih =>
    rw [fileContent_cons]
    simp only [List.length_cons, List.length_append]
    omega

/-- With two lines for each of the images but the last one, all of the same size, the pairs of
images of which both load are compared, each with its lines, and what is logged for a pair depends
on the two images, their lines and the totals before. The run ends with the totals of the last entry
unless the last image fails to load; then it writes through a null pointer. -/
theorem testWithDataset_spec (dataset : Dataset) (buffers : Buffers) (width height : ℕ)
    (hcapacity : buffers.keypointsBufferSize ≤ maxNumberOfPatchesInPyramidLevel)
    (hcolumns : 16 ≤ width) (hrows : 32 ≤ height)
    (himages : ∀ j image, dataset (datasetLoader.fileName j) = some image →
      (image.width = width ∧ image.height = height) ∧ buffers.Fit image)
    (references : List Reference) (hreferences : references ≠ [])
    (hpoints : ∀ r ∈ references, r.endPoints.length / 2 ≤ buffers.keypoints)
    (hfirst : (dataset (datasetLoader.fileName 1)).isSome = true)
    (keypoints endKeypoints : ℕ → KeyPoint) (patches : PatchPyramid) :
    ((dataset (datasetLoader.fileName (references.length + 1))).isSome = true →
      ∃ s, testWithDataset dataset buffers keypoints endKeypoints patches
          (fileContent references) = .ok (some s) ∧
        s.log = compared dataset buffers.keypointsBufferSize ⟨0, 0, 0, 0⟩ 1 references ∧
        s.toTotals = lastTotals s.log) ∧
    ((dataset (datasetLoader.fileName (references.length + 1))).isSome = false →
      testWithDataset dataset buffers keypoints endKeypoints patches
        (fileContent references) = .error .nullPointer) := by
  obtain ⟨image, himage⟩ := Option.isSome_iff_exists.mp hfirst
  have hstring : (fileContent references).takeWhile (· ≠ 0) = fileContent references := by
    rw [List.takeWhile_eq_self_iff]
    intro c hc
    simpa using ne_of_mem_of_not_mem hc (zero_notMem_fileContent references)
  have hretrieve : (datasetLoader.retrieveImage dataset 1 datasetLoader.initialise).1
      = some image := (datasetLoader.retrieveImage_index dataset 1 _).trans himage
  obtain ⟨⟨hwidth, hheight⟩, -⟩ := himages 1 image himage
  obtain ⟨hfinished, hcrashed⟩ := compareLoop_spec ⟨hcolumns, hrows, hcapacity, himages⟩
    references _ (s := ⟨⟨0, 0, 0, 0⟩, fileContent references, 1, image, image.width, image.height,
      keypoints, endKeypoints, patches, []⟩)
    (length_le_fileContent references) hpoints ⟨⟨himage, hwidth, hheight⟩, rfl, rfl⟩
  have hlast : LastLoads dataset 1 references ↔
      (dataset (datasetLoader.fileName (references.length + 1))).isSome = true := by
    rw [LastLoads, Nat.add_comm]
    exact or_iff_right hreferences
  rw [testWithDataset]
  simp only [hstring, hretrieve]
  refine ⟨fun h => ?_, fun h => ?_⟩
  · obtain ⟨s, hs, hlog, htotals⟩ := hfinished (hlast.mpr h)
    refine ⟨s, ?_, hlog, htotals⟩
    rw [hs]
    rfl
  · have hnone : ¬ LastLoads dataset 1 references := by
      rw [hlast, h]
      exact Bool.false_ne_true
    rw [hcrashed hnone]
    rfl

/-- The lines `5, 9` and `5, 9`. -/
def onePoint : Reference where
  startLine := [53, 44, 32, 57]
  endLine := [53, 44, 32, 57]
  start := [5, 9]
  endPoints := [5, 9]
  feed_notMem := by decide
  zero_notMem := by decide
  readStart := rfl
  readEnd := rfl
  enough := by decide

/-- Four images, of which the second one is missing. The third pair is compared. -/
theorem testWithDataset_onePoint :
    ∃ s, testWithDataset
        (fun name => if name = datasetLoader.fileName 2 then none else some ramp)
        ⟨⟨512, 170⟩, 800, 74⟩ (fun _ => ⟨⟨0, 0⟩, false⟩) (fun _ => ⟨⟨0, 0⟩, false⟩)
        (fun _ _ => ⟨⟨0, 0⟩, fun _ => 0⟩) (fileContent [onePoint, onePoint, onePoint])
          = .ok (some s) ∧
      s.log.map Entry.index = [3] ∧ s.totalFeaturesTracked = 1 ∧ s.totalReferenceFeatures = 1 := by
  obtain ⟨s, hs, hlog, htotals⟩ := (testWithDataset_spec
    (fun name => if name = datasetLoader.fileName 2 then none else some ramp)
    ⟨⟨512, 170⟩, 800, 74⟩ 16 32 le_rfl le_rfl le_rfl
    (fun j image himage => by
      split_ifs at himage
      obtain rfl := Option.some.inj himage
      exact ⟨⟨rfl, rfl⟩, by decide⟩)
    [onePoint, onePoint, onePoint] (List.cons_ne_nil _ _)
    (fun r hr => by
      obtain rfl : r = onePoint := by simpa using hr
      decide) rfl
    (fun _ => ⟨⟨0, 0⟩, false⟩) (fun _ => ⟨⟨0, 0⟩, false⟩) (fun _ _ => ⟨⟨0, 0⟩, fun _ => 0⟩)).1 rfl
  refine ⟨s, hs, ?_⟩
  rw [htotals, hlog]
  exact ⟨rfl, rfl, rfl⟩

end testLucasKanade

end VioFrontend
