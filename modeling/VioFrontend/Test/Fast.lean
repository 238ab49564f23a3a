import Mathlib.Data.List.TakeWhile
import VioFrontend.DatasetLoader
import VioFrontend.FeatureExtraction.Output
import VioFrontend.FeatureTracking.Identity

/-!
# The test of the feature extraction

`test_with_dataset_without_references` prints the features of all images of a dataset, one line for
an image. `test_with_dataset` reads such lines from a file and counts how many of the features that
it extracts are among those of the line. A run on the lines that the other function has printed for
the same images finds every feature.

`none` is the `exit` on a line that does not fit the buffer of the reference features, a read of a
reference feature that was not written, or a loop that does not end in `fuel` turns.
-/

namespace VioFrontend

namespace testFast

open datasetLoader (fileName retrieveImage_next)

/-! ### Printing -/

/-- A keypoint printed with `"%d, %d"`. -/
def formatKeypoint (keypoint : KeyPoint) : List UInt8 :=
  CString.formatInt (roundToInt keypoint.point.x) ++ [44, 32] ++
    CString.formatInt (roundToInt keypoint.point.y)

/-- The line of an image: `"%d, %d, "` for every keypoint, the last one without what follows it,
and `"\r\n"`. -/
def formatKeypoints (keypoints : ℕ → KeyPoint) (keypointsSize : ℕ) : List UInt8 :=
  ((List.range keypointsSize).flatMap fun i =>
    if i = keypointsSize - 1 then formatKeypoint (keypoints i)
    else formatKeypoint (keypoints i) ++ [44, 32]) ++ [13, 10]

/-- The loop of `test_with_dataset_without_references` with the text that it prints. -/
def printLoop (dataset : Dataset) (keypointsBufferSize : ℕ) :
    ℕ → ℕ → (ℕ → KeyPoint) → Option (List UInt8)
  | fuel, currentFileIndex, keypoints =>
    let (image, currentFileIndex) := datasetLoader.retrieveImage dataset (-1) currentFileIndex
    match image with
    | none       => some []
    | some image =>
      match fuel with
      | 0        => none
      | fuel + 1 => do
        let out ← extractFeatures image.data image.width image.height 100 keypoints
          keypointsBufferSize
        let text ← printLoop dataset keypointsBufferSize fuel currentFileIndex out.keypoints
        return formatKeypoints out.keypoints out.size ++ text

def testWithDatasetWithoutReferences (dataset : Dataset) (keypointsBufferSize : ℕ)
    (keypoints : ℕ → KeyPoint) (fuel : ℕ) : Option (List UInt8) :=
  printLoop dataset keypointsBufferSize fuel datasetLoader.initialise keypoints

/-! ### Comparing -/

/-- The conversion of a `long` to `uint16_t`. -/
def toUInt16 (n : ℤ) : ℕ := (n % 2 ^ 16).toNat

/-- The reference features of a line; `strtok` cuts it at commas. -/
def referenceFeatures (keypointsBufferSize : ℕ) (line : List UInt8) : Option (List ℕ) :=
  Tokens.collect 44 (fun token => toUInt16 (CString.strtol token)) (keypointsBufferSize * 2)
    line.length line []

/-- The loop over the reference features for a keypoint at `(x, y)`. -/
def isReference (x y : ℕ) : List ℕ → Option Bool
  | []             => some false
  | [a]            => if x = a then none else some false
  | a :: b :: rest => if x = a ∧ y = b then some true else isReference x y rest

/-- `features_matching`. -/
def featuresMatching (keypoints : ℕ → KeyPoint) (keypointsSize : ℕ) (reference : List ℕ) :
    Option ℕ :=
  (List.range keypointsSize).foldlM (fun count i => do
    let x := toUInt16 (roundToInt (keypoints i).point.x)
    let y := toUInt16 (roundToInt (keypoints i).point.y)
    if ← isReference x y reference then return count + 1 else return count) 0

/-- What `test_with_dataset` updates: the string at `data_ptr`, the index of the dataset loader,
the keypoint buffer, the totals, and the numbers that it has logged for each image, which are those
of the features extracted, of those matching and of the reference features. -/
structure Comparison where
  text : List UInt8
  currentFileIndex : ℕ
  keypoints : ℕ → KeyPoint
  iterations : ℕ
  totalFeaturesMatched : ℕ
  totalFeaturesExtracted : ℕ
  totalReferenceFeatures : ℕ
  log : List (ℕ × ℕ × ℕ)

/-- The body of the loop for an image and its line; `rest` is the string behind the line. -/
def compareImage (keypointsBufferSize : ℕ) (image : Raster) (line rest : List UInt8)
    (s : Comparison) : Option Comparison := do
  let out ← extractFeatures image.data image.width image.height 100 s.keypoints keypointsBufferSize
  let reference ← referenceFeatures keypointsBufferSize line
  let matching ← featuresMatching out.keypoints out.size reference
  return { s with
    text := rest
    keypoints := out.keypoints
    iterations := s.iterations + 1
    totalFeaturesMatched := s.totalFeaturesMatched + matching
    totalFeaturesExtracted := s.totalFeaturesExtracted + out.size
    totalReferenceFeatures := s.totalReferenceFeatures + reference.length / 2
    log := s.log ++ [(out.size, matching, reference.length / 2)] }

/-- The loop of `test_with_dataset`. The line ends before the first line feed, which `strchr` has
found; a line whose image fails to load is skipped. -/
def compareLoop (dataset : Dataset) (keypointsBufferSize : ℕ) : ℕ → Comparison → Option Comparison
  | fuel, s =>
    if 10 ∈ s.text then
      match fuel with
      | 0        => none
      | fuel + 1 => do
        let line := s.text.takeWhile (· ≠ 10)
        let rest := (s.text.dropWhile (· ≠ 10)).drop 1
        let (image, currentFileIndex) :=
          datasetLoader.retrieveImage dataset (-1) s.currentFileIndex
        let s := { s with currentFileIndex }
        match image with
        | none       => compareLoop dataset keypointsBufferSize fuel { s with text := rest }
        | some image =>
          compareLoop dataset keypointsBufferSize fuel
            (← compareImage keypointsBufferSize image line rest s)
    else some s

/-- `test_with_dataset` on a file with the given content; the string ends at the first zero. -/
def testWithDataset (dataset : Dataset) (keypointsBufferSize : ℕ) (keypoints : ℕ → KeyPoint)
    (content : List UInt8) : Option Comparison :=
  let text := content.takeWhile (· ≠ 0)
  compareLoop dataset keypointsBufferSize text.length
    ⟨text, datasetLoader.initialise, keypoints, 0, 0, 0, 0, []⟩

/-! ### A printed line -/

/-- The numbers that are printed for a keypoint. -/
def coordinates (keypoint : KeyPoint) : List ℤ :=
  [roundToInt keypoint.point.x, roundToInt keypoint.point.y]

/-- The line is the list of all coordinates. -/
lemma formatKeypoints_eq (keypoints : ℕ → KeyPoint) (keypointsSize : ℕ) :
    formatKeypoints keypoints keypointsSize
      = CString.formatInts (((List.range keypointsSize).map keypoints).flatMap coordinates)
        ++ [13, 10] := by
  have hfrom : ∀ n a, a + n = keypointsSize →
      ((List.range' a n).flatMap fun i =>
        if i = keypointsSize - 1 then formatKeypoint (keypoints i)
        else formatKeypoint (keypoints i) ++ [44, 32])
      = CString.formatInts (((List.range' a n).map keypoints).flatMap coordinates) := by
    intro n
    induction n with
    | zero => intro a _; rfl
    | succ n ih =>
      intro a ha
      have htail := ih (a + 1) (by omega)
      rw [List.range'_succ, List.flatMap_cons, List.map_cons, List.flatMap_cons, htail]
      cases n with
      | zero =>
        rw [if_pos (by omega)]
        simp [coordinates, formatKeypoint, CString.formatInts]
      | succ n =>
        rw [if_neg (by omega), List.range'_succ, List.map_cons, List.flatMap_cons]
        simp [coordinates, formatKeypoint, CString.formatInts]
  rw [formatKeypoints, List.range_eq_range', hfrom keypointsSize 0 (Nat.zero_add _)]

/-- The keypoints that are extracted from an image. -/
def features (keypointsBufferSize : ℕ) (image : Raster) : List KeyPoint :=
  (image.reported 100).take keypointsBufferSize

lemma map_range_getD {α : Type*} (l : List α) (d : ℕ → α) :
    ((List.range l.length).map fun i => (l[i]?).getD (d i)) = l := by
  refine List.ext_getElem (by simp) fun i hi hi' => ?_
  simp [hi']

lemma extractFeatures_features (keypointsBufferSize : ℕ) (keypoints : ℕ → KeyPoint)
    {image : Raster} (hw : image.width ≤ 32768) :
    ∃ out, extractFeatures image.data image.width image.height 100 keypoints keypointsBufferSize
        = some out ∧
      out.size = (features keypointsBufferSize image).length ∧
      (List.range out.size).map out.keypoints = features keypointsBufferSize image := by
  have hlength : min keypointsBufferSize (image.reported 100).length
      = (features keypointsBufferSize image).length := (List.length_take ..).symm
  refine ⟨_, extractFeatures_spec hw keypoints keypointsBufferSize, hlength, ?_⟩
  simp only [hlength]
  exact map_range_getD (features keypointsBufferSize image) keypoints

/-- The coordinates of a feature are numbers that can be printed. -/
lemma coordinates_bound {keypointsBufferSize : ℕ} {image : Raster} (hw : image.width ≤ 32768)
    (hh : image.height ≤ 2 ^ 16) :
    ∀ n ∈ (features keypointsBufferSize image).flatMap coordinates, -2 ^ 31 ≤ n ∧ n < 2 ^ 31 := by
  intro n hn
  obtain ⟨keypoint, hkeypoint, hn⟩ := List.mem_flatMap.mp hn
  obtain ⟨y, c, hc, -, rfl⟩ := mem_reported.mp (List.mem_of_mem_take hkeypoint)
  obtain ⟨hx, hy, -⟩ := Raster.rowCorners_bound hc
  have hround : ∀ m : ℕ, roundToInt (m : ℚ) = m := fun m => roundToInt_intCast m
  simp only [coordinates, Raster.keyPoint, hround, List.mem_cons, List.not_mem_nil, or_false] at hn
  omega

/-! ### Reading the line back -/

/-- The reference features that are read from the line of an image. -/
def references (keypointsBufferSize : ℕ) (image : Raster) : List ℕ :=
  (if (features keypointsBufferSize image).flatMap coordinates = [] then [0]
    else (features keypointsBufferSize image).flatMap coordinates).map toUInt16

lemma length_coordinates (keypoints : List KeyPoint) :
    (keypoints.flatMap coordinates).length = 2 * keypoints.length := by
  induction keypoints with
  | nil => rfl
  | cons keypoint keypoints ih =>
    rw [List.flatMap_cons, List.length_append, ih, List.length_cons, coordinates]
    simp only [List.length_cons, List.length_nil]
    omega

lemma length_references (keypointsBufferSize : ℕ) (image : Raster) :
    (references keypointsBufferSize image).length / 2
      = (features keypointsBufferSize image).length := by
  have hlength := length_coordinates (features keypointsBufferSize image)
  rw [references, List.length_map]
  split_ifs with hnone
  · rw [hnone, List.length_nil] at hlength
    simp only [List.length_singleton]
    omega
  · omega

/-- The line of an image, as it is between its start and the line feed. -/
def printedLine (keypointsBufferSize : ℕ) (image : Raster) : List UInt8 :=
  CString.formatInts ((features keypointsBufferSize image).flatMap coordinates) ++ [13]

lemma referenceFeatures_printedLine {keypointsBufferSize : ℕ} (hsize : 0 < keypointsBufferSize)
    {image : Raster} (hw : image.width ≤ 32768) (hh : image.height ≤ 2 ^ 16) :
    referenceFeatures keypointsBufferSize (printedLine keypointsBufferSize image)
      = some (references keypointsBufferSize image) := by
  have hfits : (features keypointsBufferSize image).length ≤ keypointsBufferSize :=
    List.length_take_le _ _
  refine CString.collect_formatInts toUInt16 (coordinates_bound hw hh) (by omega) ?_
  rw [length_coordinates]
  omega

/-- A keypoint of the line is found. -/
lemma isReference_of_mem {keypoint : KeyPoint} {keypoints : List KeyPoint}
    (h : keypoint ∈ keypoints) :
    isReference (toUInt16 (roundToInt keypoint.point.x)) (toUInt16 (roundToInt keypoint.point.y))
      ((keypoints.flatMap coordinates).map toUInt16) = some true := by
  induction keypoints with
  | nil => cases h
  | cons keypoint' keypoints ih =>
    rw [List.flatMap_cons, coordinates, List.cons_append, List.cons_append, List.nil_append,
      List.map_cons, List.map_cons, isReference]
    split_ifs with hfirst
    · rfl
    · rcases List.mem_cons.mp h with rfl | h
      · exact absurd ⟨rfl, rfl⟩ hfirst
      · exact ih h

lemma featuresMatching_of_forall {keypoints : ℕ → KeyPoint} {keypointsSize : ℕ}
    {reference : List ℕ}
    (h : ∀ i < keypointsSize, isReference (toUInt16 (roundToInt (keypoints i).point.x))
      (toUInt16 (roundToInt (keypoints i).point.y)) reference = some true) :
    featuresMatching keypoints keypointsSize reference = some keypointsSize := by
  induction keypointsSize with
  | zero => rfl
  | succ n ih =>
    have hbefore := ih fun i hi => h i (Nat.lt_succ_of_lt hi)
    rw [featuresMatching] at hbefore ⊢
    rw [List.range_succ, List.foldlM_append, hbefore]
    simp [h n (Nat.lt_succ_self n)]

/-! ### The loops -/

/-- Every extracted feature has been found, and nothing else was looked for. -/
structure AllFound (s : Comparison) : Prop where
  matched : s.totalFeaturesMatched = s.totalFeaturesExtracted
  reference : s.totalReferenceFeatures = s.totalFeaturesExtracted
  length : s.log.length = s.iterations
  log : ∀ entry ∈ s.log, entry.2.1 = entry.1 ∧ entry.2.2 = entry.1

/-- The iteration for an image and the line that was printed for it. -/
lemma compareImage_printedLine {keypointsBufferSize : ℕ} (hsize : 0 < keypointsBufferSize)
    {image : Raster} (hw : image.width ≤ 32768) (hh : image.height ≤ 2 ^ 16) (rest : List UInt8)
    {s : Comparison} (h : AllFound s) :
    ∃ s', compareImage keypointsBufferSize image (printedLine keypointsBufferSize image) rest s
        = some s' ∧
      s'.text = rest ∧ s'.currentFileIndex = s.currentFileIndex ∧
      s'.iterations = s.iterations + 1 ∧ AllFound s' := by
  obtain ⟨out, hout, hlength, hkeypoints⟩ :=
    extractFeatures_features keypointsBufferSize s.keypoints hw
  have hmatching : featuresMatching out.keypoints out.size (references keypointsBufferSize image)
      = some out.size := by
    refine featuresMatching_of_forall fun i hi => ?_
    have hmem : out.keypoints i ∈ features keypointsBufferSize image := by
      rw [← hkeypoints]
      exact List.mem_map_of_mem (List.mem_range.mpr hi)
    have hsome : (features keypointsBufferSize image).flatMap coordinates ≠ [] := by
      intro hnone
      have hlength := length_coordinates (features keypointsBufferSize image)
      rw [hnone, List.length_nil] at hlength
      omega
    rw [references, if_neg hsome]
    exact isReference_of_mem hmem
  have hrun : compareImage keypointsBufferSize image (printedLine keypointsBufferSize image) rest s
      = some { s with
          text := rest
          keypoints := out.keypoints
          iterations := s.iterations + 1
          totalFeaturesMatched := s.totalFeaturesMatched + out.size
          totalFeaturesExtracted := s.totalFeaturesExtracted + out.size
          totalReferenceFeatures := s.totalReferenceFeatures
            + (references keypointsBufferSize image).length / 2
          log := s.log ++
            [(out.size, out.size, (references keypointsBufferSize image).length / 2)] } := by
    simp only [compareImage, hout, referenceFeatures_printedLine hsize hw hh, hmatching,
      Option.bind_eq_bind, Option.bind_some]
    rfl
  refine ⟨_, hrun, rfl, rfl, rfl, ?_⟩
  obtain ⟨hmatched, hreference, hlog, hentries⟩ := h
  have hsame := length_references keypointsBufferSize image
  refine ⟨?_, ?_, ?_, fun entry hentry => ?_⟩
  · simp only [hmatched]
  · simp only [hreference, hsame, hlength]
  · simp [hlog]
  · rcases List.mem_append.mp hentry with hentry | hentry
    · exact hentries entry hentry
    · obtain rfl := List.mem_singleton.mp hentry
      exact ⟨rfl, by simp only [hsame, hlength]⟩

/-- The images `k, ..., k + m - 1` load, and the next one does not. -/
structure HoldsImages (dataset : Dataset) (k m : ℕ) : Prop where
  image : ∀ j, k ≤ j → j < k + m →
    ∃ image, dataset (fileName j) = some image ∧ image.width ≤ 32768 ∧ image.height ≤ 2 ^ 16
  last : dataset (fileName (k + m)) = none

/-- The number of images `k, ..., k + m - 1` that load. -/
def loaded (dataset : Dataset) (k m : ℕ) : ℕ :=
  (List.range' k m).countP fun j => (dataset (fileName j)).isSome

lemma loaded_succ (dataset : Dataset) (k m : ℕ) :
    loaded dataset k (m + 1)
      = (if (dataset (fileName k)).isSome then 1 else 0) + loaded dataset (k + 1) m := by
  rw [loaded, List.range'_succ, List.countP_cons, loaded, Nat.add_comm]

/-- The turn of the loop for a line. -/
lemma compareLoop_line {dataset : Dataset} {keypointsBufferSize : ℕ} {line rest : List UInt8}
    (hline : 10 ∉ line) (fuel : ℕ) {s : Comparison} (hs : s.text = line ++ 10 :: rest)
    (hindex : s.currentFileIndex + 1 < 2 ^ 32) :
    compareLoop dataset keypointsBufferSize (fuel + 1) s
      = match dataset (fileName s.currentFileIndex) with
        | none =>
          compareLoop dataset keypointsBufferSize fuel
            { s with text := rest, currentFileIndex := s.currentFileIndex + 1 }
        | some image =>
          (compareImage keypointsBufferSize image line rest
            { s with currentFileIndex := s.currentFileIndex + 1 }).bind
              (compareLoop dataset keypointsBufferSize fuel) := by
  have hall : ∀ c ∈ line, decide (c ≠ 10) = true := by
    intro c hc
    simpa using ne_of_mem_of_not_mem hc hline
  have htake : s.text.takeWhile (· ≠ 10) = line := by
    rw [hs, List.takeWhile_append_of_pos hall, List.takeWhile_cons_of_neg (by decide),
      List.append_nil]
  have hdrop : (s.text.dropWhile (· ≠ 10)).drop 1 = rest := by
    rw [hs, List.dropWhile_append_of_pos hall, List.dropWhile_cons_of_neg (by decide)]
    rfl
  have hfeed : 10 ∈ s.text := by
    rw [hs]
    exact List.mem_append_right _ List.mem_cons_self
  rw [compareLoop.eq_def]
  simp only [if_pos hfeed, htake, hdrop, retrieveImage_next dataset hindex]
  cases dataset (fileName s.currentFileIndex) <;> rfl

/-- From image `k` on, the printing loop prints lines on which the comparing loop finds all
features of the images that still load. -/
lemma compareLoop_printed {dataset dataset' : Dataset} {keypointsBufferSize : ℕ}
    (hsize : 0 < keypointsBufferSize) (m k : ℕ) (hk : k + m + 1 < 2 ^ 32)
    (himages : HoldsImages dataset k m)
    (hsame : ∀ j, k ≤ j → j < k + m →
      dataset' (fileName j) = none ∨ dataset' (fileName j) = dataset (fileName j))
    (keypoints : ℕ → KeyPoint) :
    ∃ text, printLoop dataset keypointsBufferSize m k keypoints = some text ∧
      0 ∉ text ∧ m ≤ text.length ∧
      ∀ fuel s, m ≤ fuel → s.text = text → s.currentFileIndex = k → AllFound s →
        ∃ s', compareLoop dataset' keypointsBufferSize fuel s = some s' ∧
          s'.iterations = s.iterations + loaded dataset' k m ∧ AllFound s' := by
  induction m generalizing k keypoints with
  | zero =>
    refine ⟨[], ?_, List.not_mem_nil, le_rfl, fun fuel s _ htext _ h => ⟨s, ?_, rfl, h⟩⟩
    · have hlast := himages.last
      rw [Nat.add_zero] at hlast
      rw [printLoop.eq_def]
      simp only [retrieveImage_next dataset (k := k) (by omega), hlast]
    · have hnone : 10 ∉ s.text := htext ▸ List.not_mem_nil
      rw [compareLoop.eq_def]
      exact if_neg hnone
  | succ m ih =>
    obtain ⟨image, hload, hw, hh⟩ := himages.image k le_rfl (by omega)
    obtain ⟨out, hout, hlength, hkeypoints⟩ :=
      extractFeatures_features keypointsBufferSize keypoints hw
    have hrest : HoldsImages dataset (k + 1) m := by
      refine ⟨fun j hj hjm => himages.image j (by omega) (by omega), ?_⟩
      rw [Nat.add_right_comm]
      exact himages.last
    obtain ⟨text, hprint, hzero, htext, hcompare⟩ := ih (k + 1) (by omega) hrest
      (fun j hj hjm => hsame j (by omega) (by omega)) out.keypoints
    have hline : formatKeypoints out.keypoints out.size
        = printedLine keypointsBufferSize image ++ [10] := by
      rw [formatKeypoints_eq, hkeypoints, printedLine, List.append_assoc]
      rfl
    have hnotMem : ∀ {c : UInt8}, CString.isDigit c = false → c ≠ 45 → c ≠ 44 → c ≠ 32 → c ≠ 13 →
        c ∉ printedLine keypointsBufferSize image := by
      intro c hdigit hminus hcomma hblank hreturn
      rw [printedLine, List.mem_append, not_or, List.mem_singleton]
      exact ⟨CString.notMem_formatInts hdigit hminus hcomma hblank _, hreturn⟩
    have hfeed : 10 ∉ printedLine keypointsBufferSize image := by
      apply hnotMem <;> decide
    have hzero' : 0 ∉ printedLine keypointsBufferSize image := by
      apply hnotMem <;> decide
    refine ⟨printedLine keypointsBufferSize image ++ 10 :: text, ?_, ?_, ?_, ?_⟩
    · rw [printLoop.eq_def]
      simp only [retrieveImage_next dataset (k := k) (by omega), hload, hout, hprint, hline,
        Option.bind_eq_bind, Option.bind_some, List.append_assoc]
      rfl
    · simp [hzero, hzero']
    · rw [List.length_append, List.length_cons]
      omega
    · intro fuel s hfuel hs hindex h
      obtain ⟨fuel, rfl⟩ := Nat.exists_eq_add_of_le' (Nat.one_le_of_lt hfuel)
      rw [compareLoop_line hfeed fuel hs (by omega), loaded_succ, hindex]
      rcases hsame k le_rfl (by omega) with hmissing | hagree
      · obtain ⟨s', hs', hiterations, hfound⟩ := hcompare fuel
          { s with text := text, currentFileIndex := k + 1 } (by omega) rfl rfl
          ⟨h.matched, h.reference, h.length, h.log⟩
        refine ⟨s', ?_, ?_, hfound⟩
        · simp only [hmissing, hs']
        · simp [hmissing, hiterations]
      · obtain ⟨r, hr, hrtext, hrindex, hriterations, hrfound⟩ := compareImage_printedLine hsize
          hw hh text (s := { s with currentFileIndex := k + 1 })
          ⟨h.matched, h.reference, h.length, h.log⟩
        obtain ⟨s', hs', hiterations, hfound⟩ := hcompare fuel r (by omega) hrtext hrindex hrfound
        refine ⟨s', ?_, ?_, hfound⟩
        · simp only [hagree, hload, hr, Option.bind_some, hs']
        · simp [hagree, hload, hiterations, hriterations, Nat.add_assoc]

end testFast

end VioFrontend
