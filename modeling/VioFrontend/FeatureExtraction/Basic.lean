import VioFrontend.Library.PackedBytes
import VioFrontend.Image.Basic

/-!
# FAST feature extraction

The functions of `feature_extraction.cpp`. Every access to an array goes through
`Checked.Buffer`, so `none` stands for an access outside its array, a read of a cell that the
call has not written, or a group loop that does not end in `width` iterations. Pointers are
integer offsets into the array they point to.
-/

namespace VioFrontend

open Checked PackedBytes

def belowThresholdRange : ℕ := 1
def withinThresholdRange : ℕ := 0
def aboveThresholdRange : ℕ := 2

/-- The amount of consecutive pattern pixels that make a corner. -/
def consecutivePixelsInPattern : ℕ := 9

/-- The offsets of the 16 pattern points from their centre, the first 9 repeated. -/
def patternOffset (width : ℤ) (k : Fin 25) : ℤ :=
  [0 + width * 3, 1 + width * 3, 2 + width * 2, 3 + width * 1, 3 + width * 0,
    3 + width * -1, 2 + width * -2, 1 + width * -3, 0 + width * -3, -1 + width * -3,
    -2 + width * -2, -3 + width * -1, -3 + width * 0, -3 + width * 1, -2 + width * 2,
    -1 + width * 3,
    0 + width * 3, 1 + width * 3, 2 + width * 2, 3 + width * 1, 3 + width * 0,
    3 + width * -1, 2 + width * -2, 1 + width * -3, 0 + width * -3].get k

/-! ### Corner score -/

/-- `d[2 * m + i]`, the entries that iteration `k = 2 * m` of the score loops reads. -/
def entry (d : Fin 25 → ℤ) (m : Fin 8) (i : Fin 10) : ℤ := d ⟨2 * m + i, by omega⟩

/-- Iteration `k = 2 * m` of the loop over dark arcs. -/
def darkPass (d : Fin 25 → ℤ) (a0 : ℤ) (m : Fin 8) : ℤ :=
  let a := min (entry d m 1) (entry d m 2)
  let a := min a (entry d m 3)
  if a ≤ a0 then a0
  else
    let a := min a (entry d m 4)
    let a := min a (entry d m 5)
    let a := min a (entry d m 6)
    let a := min a (entry d m 7)
    let a := min a (entry d m 8)
    let a0 := max a0 (min a (entry d m 0))
    max a0 (min a (entry d m 9))

/-- Iteration `k = 2 * m` of the loop over bright arcs. -/
def brightPass (d : Fin 25 → ℤ) (b0 : ℤ) (m : Fin 8) : ℤ :=
  let b := max (entry d m 1) (entry d m 2)
  let b := max b (entry d m 3)
  let b := max b (entry d m 4)
  let b := max b (entry d m 5)
  if b ≥ b0 then b0
  else
    let b := max b (entry d m 6)
    let b := max b (entry d m 7)
    let b := max b (entry d m 8)
    let b0 := min b0 (max b (entry d m 0))
    min b0 (max b (entry d m 9))

def calculateCornerScore (image : Buffer UInt8) (ptr : ℤ) (pattern : Fin 25 → ℤ)
    (threshold : ℤ) : Option ℤ := do
  let v ← image.read ptr
  let d ← collect fun k => do
    let p ← image.read (ptr + pattern k)
    some ((v.toNat : ℤ) - p.toNat)
  let a0 := (List.finRange 8).foldl (darkPass d) threshold
  let b0 := (List.finRange 8).foldl (brightPass d) (-a0)
  some (-b0 - 1)

/-! ### Corner candidates -/

/-- Zero `length` bytes, 4 bytes at a time. -/
def fastClearBuffer (buffer : Buffer UInt8) (length : ℕ) : Option (Buffer UInt8) :=
  (List.range ((length + 3) / 4)).foldlM
    (fun b (i : ℕ) => b.writeList (4 * i) [0, 0, 0, 0]) buffer

/-- The class of a pattern value that exceeds the centre by `n`. -/
def thresholdClass (threshold n : ℤ) : ℕ :=
  if n < -threshold then belowThresholdRange
  else if n > threshold then aboveThresholdRange
  else withinThresholdRange

/-- The lookup table: entry `n + 255` for every difference `n` from -255 to 255. -/
def thresholdLookupTable (threshold : ℤ) : Option (Buffer ℕ) :=
  (Buffer.blank 512).fill (fun i => thresholdClass threshold ((i : ℤ) - 255)) 511

/-- The loop over the unwrapped pattern that counts consecutive pixels in a range. -/
def consecutiveLoop (image : Buffer UInt8) (ptr : ℤ) (pattern : Fin 25 → ℤ)
    (inRange : UInt8 → Bool) : List (Fin 25) → ℕ → Option Bool
  | [], _ => some false
  | k :: ks, count => do
    let p ← image.read (ptr + pattern k)
    if inRange p then
      if count + 1 = consecutivePixelsInPattern then some true
      else consecutiveLoop image ptr pattern inRange ks (count + 1)
    else consecutiveLoop image ptr pattern inRange ks 0

/-- The final check of one polarity, made when the mask allows it. -/
def polarityCheck (image : Buffer UInt8) (ptr : ℤ) (pattern : Fin 25 → ℤ) (mask polarity : ℕ)
    (inRange : UInt8 → Bool) : Option Bool :=
  if mask &&& polarity ≠ 0 then
    consecutiveLoop image ptr pattern inRange (List.finRange 25) 0
  else some false

/-- The classes of the two ends of a diagonal, combined. -/
def diagonalClass (image : Buffer UInt8) (pixelPtr : ℤ) (pixelValue : ℤ) (table : Buffer ℕ)
    (pattern : Fin 25 → ℤ) (k l : Fin 25) : Option ℕ := do
  let p ← image.read (pixelPtr + pattern k)
  let a ← table.read (255 - pixelValue + p.toNat)
  let q ← image.read (pixelPtr + pattern l)
  let b ← table.read (255 - pixelValue + q.toNat)
  some (a ||| b)

def evaluateCornerCandidate (image : Buffer UInt8) (pixelPtr : ℤ) (threshold : ℤ)
    (table : Buffer ℕ) (pattern : Fin 25 → ℤ) : Option ℤ := do
  let v ← image.read pixelPtr
  let pixelValue : ℤ := v.toNat
  let diagonal := diagonalClass image pixelPtr pixelValue table pattern
  let mask ← diagonal 0 8
  if mask = 0 then return 0
  let mask := mask &&& (← diagonal 4 12)
  if mask = 0 then return 0
  let mask := mask &&& (← diagonal 2 10)
  if mask = 0 then return 0
  let mask := mask &&& (← diagonal 6 14)
  if mask = 0 then return 0
  let mask := mask &&& (← diagonal 1 9)
  if mask = 0 then return 0
  let mask := mask &&& (← diagonal 3 11)
  if mask = 0 then return 0
  let mask := mask &&& (← diagonal 5 13)
  if mask = 0 then return 0
  let mask := mask &&& (← diagonal 7 15)
  if mask = 0 then return 0
  if ← polarityCheck image pixelPtr pattern mask belowThresholdRange
      (fun p => (p.toNat : ℤ) < pixelValue - threshold) then
    calculateCornerScore image pixelPtr pattern threshold
  else if ← polarityCheck image pixelPtr pattern mask aboveThresholdRange
      (fun p => (p.toNat : ℤ) > pixelValue + threshold) then
    calculateCornerScore image pixelPtr pattern threshold
  else return 0

/-! ### The scan of a row in groups of four pixels -/

/-- An unaligned 4 byte load; the byte at the lowest address is lane 0. -/
def loadWord (image : Buffer UInt8) (ptr : ℤ) : Option (BitVec 32) := do
  let b ← collect fun k : Fin 4 => image.read (ptr + k)
  some (pack fun k => if h : k < 4 then b ⟨k, h⟩ else 0)

/-- The threshold in each of the four bytes. -/
def thresholdPacked (threshold : UInt8) : BitVec 32 :=
  let t := threshold.toBitVec.setWidth 32
  (t <<< 24) ||| (t <<< 16) ||| (t <<< 8) ||| t

/-- The masks of the lanes whose pattern pixels can be above and below the threshold range. -/
structure Masks where
  plus : BitVec 32
  minus : BitVec 32

/-- One test along a diagonal with end points `first` and `second`. A half that can not fire in
any lane is skipped and keeps its old mask. -/
def diagonalTest (plus minus first second : BitVec 32) (old : Masks) : Masks where
  plus :=
    if plus < 0xFFFFFFFF then
      sel (usub8 first plus) 0xFFFFFFFF 0x0 ||| sel (usub8 second plus) 0xFFFFFFFF 0x0
    else old.plus
  minus :=
    if minus > 0x0 then
      sel (usub8 minus first) 0xFFFFFFFF 0x0 ||| sel (usub8 minus second) 0xFFFFFFFF 0x0
    else old.minus

def Masks.combined (m : Masks) : BitVec 32 := m.plus ||| m.minus

/-- How far the group index moves back when the test ends the iteration; `none` when the
iteration goes on. -/
def stepBack (mask : BitVec 32) : Option ℤ :=
  if mask = 0 then some 0
  else if mask = 0xFFFFFF00 then some 3
  else if mask = 0xFFFF0000 then some 2
  else if mask = 0xFF000000 then some 1
  else none

/-- What a row scan updates: the group index, its pixel pointer, the two buffers and the number
of corners found so far. -/
structure RowScan where
  i : ℤ
  pixelPtr : ℤ
  scores : Buffer UInt8
  positions : Buffer ℕ
  corners : ℕ

/-- The step to the next group after the index moved back by `back`. -/
def RowScan.advance (s : RowScan) (back : ℤ) : RowScan :=
  { s with i := s.i - back + 4, pixelPtr := s.pixelPtr - back + 4 }

/-- What stays fixed during the scan of one row; the two pointers are the start of the current
row in the score and in the position buffer. -/
structure RowContext where
  image : Buffer UInt8
  width : ℤ
  threshold : UInt8
  table : Buffer ℕ
  currentRowScores : ℤ
  currentRowCornerPositions : ℤ

/-- Evaluate pixel `idx` of the group and store its score and, for a corner, its position. -/
def evaluateLane (c : RowContext) (s : RowScan) (idx : ℕ) : Option RowScan := do
  let score ← evaluateCornerCandidate c.image (s.pixelPtr + idx) c.threshold.toNat c.table
    (patternOffset c.width)
  let scores ← s.scores.write (c.currentRowScores + (s.i + idx)) (UInt8.ofInt score)
  let stored ← scores.read (c.currentRowScores + (s.i + idx))
  if stored ≠ 0 then
    let positions ← s.positions.write (c.currentRowCornerPositions + s.corners)
      ((s.i + idx).toNat % 2 ^ 16)
    return { s with scores, positions, corners := (s.corners + 1) % 2 ^ 16 }
  else return { s with scores }

/-- `pixels_plus_threshold_packed` and `pixels_minus_threshold_packed` of the group at a pixel. -/
def packedBounds (image : Buffer UInt8) (threshold : UInt8) (pixelPtr : ℤ) :
    Option (BitVec 32 × BitVec 32) := do
  let pixels ← loadWord image pixelPtr
  return (uqadd8 pixels (thresholdPacked threshold), uqsub8 pixels (thresholdPacked threshold))

/-- The rough test of the group at a pixel along the diagonal of the pattern points `k` and `l`. -/
def testDiagonal (image : Buffer UInt8) (width pixelPtr : ℤ) (bounds : BitVec 32 × BitVec 32)
    (k l : Fin 25) (old : Masks) : Option Masks := do
  let first ← loadWord image (pixelPtr + patternOffset width k)
  let second ← loadWord image (pixelPtr + patternOffset width l)
  return diagonalTest bounds.1 bounds.2 first second old

/-- The two rough tests of the group at a pixel: how far the group steps back, and `none` when its
four pixels are evaluated. -/
def testGroup (image : Buffer UInt8) (width : ℤ) (threshold : UInt8) (pixelPtr : ℤ) :
    Option (Option ℤ) := do
  let bounds ← packedBounds image threshold pixelPtr
  let masks ← testDiagonal image width pixelPtr bounds 8 0 ⟨0x0, 0x0⟩
  match stepBack masks.combined with
  | some back => return some back
  | none =>
    -- the masks are not reset, so a half that is skipped keeps that of the first test
    let masks ← testDiagonal image width pixelPtr bounds 4 12 masks
    return stepBack masks.combined

/-- `threshold_mask` of the group at a pixel: after the test of the points 0 and 8, and after that
of the points 4 and 12. -/
def thresholdMasks (image : Buffer UInt8) (width : ℤ) (threshold : UInt8) (pixelPtr : ℤ) :
    Option (BitVec 32 × BitVec 32) := do
  let bounds ← packedBounds image threshold pixelPtr
  let first ← testDiagonal image width pixelPtr bounds 8 0 ⟨0x0, 0x0⟩
  let second ← testDiagonal image width pixelPtr bounds 4 12 first
  return (first.combined, second.combined)

/-- One iteration of the loop over groups of four pixels. -/
def scanGroup (c : RowContext) (s : RowScan) : Option RowScan := do
  let scores ← s.scores.writeList (c.currentRowScores + s.i) [0, 0, 0, 0]
  let s := { s with scores }
  match ← testGroup c.image c.width c.threshold s.pixelPtr with
  | some back => return s.advance back
  | none =>
    let s ← evaluateLane c s 0
    let s ← evaluateLane c s 1
    let s ← evaluateLane c s 2
    let s ← evaluateLane c s 3
    return s.advance 0

/-- The loop over groups, given a number of iterations in which it has to end. -/
def scanRow (c : RowContext) : ℕ → RowScan → Option RowScan
  | fuel, s =>
    if s.i < c.width - 7 then
      match fuel with
      | 0 => none
      | fuel + 1 => do scanRow c fuel (← scanGroup c s)
    else some s

/-! ### Suppression and the loop over rows -/

/-- The keypoint array of the caller, the number of keypoints written to it, and whether the
function has returned because there was no space for one more. -/
structure OutKeypoints where
  keypoints : ℕ → KeyPoint
  size : ℕ
  outOfSpace : Bool

/-- The state of the loop over rows. -/
structure Extraction where
  rowScores : Buffer UInt8
  rowCornerPositions : Buffer ℕ
  out : OutKeypoints

/-- The start of row slot `slot` in the score buffer. -/
def rowScoresStart (width slot : ℤ) : ℤ := slot * width

/-- The start of row slot `slot` in the position buffer; the entry before it is the count. -/
def rowCornerPositionsStart (width slot : ℤ) : ℤ := 1 + slot * (width + 1)

/-- Whether the score at `idx` of the previous row beats its 8 neighbours; the comparison stops
at the first neighbour that it does not beat. -/
def isMaximum (scores : Buffer UInt8) (previous secondPrevious current idx : ℤ) : Option Bool := do
  let score ← scores.read (previous + idx)
  let beats : List ℤ → Option Bool := fun neighbours =>
    neighbours.foldlM (fun ok n => if ok then do return decide (score > (← scores.read n))
      else some false) true
  beats [previous + idx + 1, previous + idx - 1,
    secondPrevious + idx - 1, secondPrevious + idx, secondPrevious + idx + 1,
    current + idx - 1, current + idx, current + idx + 1]

/-- The loop over the corners of the previous row, which starts at `previous` in `scores` and at
`positions` in `rowCornerPositions`. -/
def suppressRow (scores : Buffer UInt8) (rowCornerPositions : Buffer ℕ)
    (maxNumberOfKeypoints : ℕ) (previous secondPrevious current positions j : ℤ) :
    List ℕ → OutKeypoints → Option OutKeypoints
  | [], out => some out
  | k :: ks, out => do
    let idx ← rowCornerPositions.read (positions + k)
    if ← isMaximum scores previous secondPrevious current idx then
      if out.size = maxNumberOfKeypoints then
        return { out with outOfSpace := true }
      else
        suppressRow scores rowCornerPositions maxNumberOfKeypoints previous secondPrevious current
          positions j ks
          { out with
            keypoints := Function.update out.keypoints out.size
              ⟨⟨(idx : ℚ), ((j - 1 : ℤ) : ℚ)⟩, false⟩
            size := out.size + 1 }
    else
      suppressRow scores rowCornerPositions maxNumberOfKeypoints previous secondPrevious current
        positions j ks out

/-- The block that examines row `j`; the last iteration of the loop over rows skips it. -/
def examineRow (c : RowContext) (height j : ℤ) (start : RowScan) : Option RowScan :=
  if j < height - 3 then scanRow c c.width.toNat start else some start

/-- The iteration of the loop over rows for row `j`. -/
def extractRow (image : Buffer UInt8) (width height : ℤ) (threshold : UInt8) (table : Buffer ℕ)
    (maxNumberOfKeypoints : ℕ) (j : ℤ) (e : Extraction) : Option Extraction := do
  let current := rowScoresStart width ((j - 3) % 3)
  let currentPositions := rowCornerPositionsStart width ((j - 3) % 3)
  let start : RowScan := ⟨3, j * width + 3, e.rowScores, e.rowCornerPositions, 0⟩
  let s ← examineRow ⟨image, width, threshold, table, current, currentPositions⟩ height j start
  let positions ← s.positions.write (currentPositions - 1) s.corners
  if j = 3 then return ⟨s.scores, positions, e.out⟩
  let previousPositions := rowCornerPositionsStart width ((j - 1) % 3)
  let number ← positions.read (previousPositions - 1)
  let out ← suppressRow s.scores positions maxNumberOfKeypoints
    (rowScoresStart width ((j - 1) % 3)) (rowScoresStart width ((j - 2) % 3)) current
    previousPositions j (List.range number) e.out
  return ⟨s.scores, positions, out⟩

/-- The loop over rows, which an iteration ends early when it runs out of space. -/
def extractRows (image : Buffer UInt8) (width height : ℤ) (threshold : UInt8)
    (table : Buffer ℕ) (maxNumberOfKeypoints : ℕ) : List ℤ → Extraction → Option Extraction
  | [], e => some e
  | j :: js, e => do
    let e ← extractRow image width height threshold table maxNumberOfKeypoints j e
    if e.out.outOfSpace then return e
    else extractRows image width height threshold table maxNumberOfKeypoints js e

/-- The rows `3, ..., height - 3` that the loop `for (j = 3; j < height - 2; j++)` visits. -/
def scannedRows (height : ℤ) : List ℤ :=
  (List.range (height - 5).toNat).map fun n : ℕ => (n : ℤ) + 3

/-- Detect FAST features. `outKeypointsSize` is the capacity of `outKeypoints`. -/
def extractFeatures (imageBuffer : Buffer UInt8) (width height : ℤ) (threshold : UInt8)
    (outKeypoints : ℕ → KeyPoint) (outKeypointsSize : ℕ) : Option OutKeypoints := do
  let table ← thresholdLookupTable threshold.toNat
  let rowScores ← fastClearBuffer (Buffer.blank (((width * 3) / 4 + 1) * 4).toNat)
    (width * 3).toNat
  let rowCornerPositions := Buffer.blank ((width + 1) * 3 * 2).toNat
  let e ← extractRows imageBuffer width height threshold table outKeypointsSize
    (scannedRows height) ⟨rowScores, rowCornerPositions, ⟨outKeypoints, 0, false⟩⟩
  return e.out

end VioFrontend
