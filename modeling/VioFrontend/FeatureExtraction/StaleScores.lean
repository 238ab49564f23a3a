import VioFrontend.FeatureExtraction.LeftOver

/-!
# Stale scores

Which values the suppression of a row reads, and whether they belong to the pixels that they are
taken for. A `Comparison` is a state of the call in which a corner is about to be compared with its
neighbours; its cells should hold what the call has evaluated for their pixels. They do when the
comparison stops before the left-over scores.
-/

namespace VioFrontend

open Checked

/-! ### The pixels that are evaluated -/

/-- The columns that the loop over groups evaluates from column `i` on. -/
def evaluatedColumns (image : Buffer UInt8) (width : ℤ) (threshold : UInt8) :
    ℕ → ℤ → ℤ → Option (List ℤ)
  | 0, i, _ => if i < width - 7 then none else some []
  | fuel + 1, i, pixelPtr =>
    if i < width - 7 then do
      match ← testGroup image width threshold pixelPtr with
      | some back =>
        evaluatedColumns image width threshold fuel (i - back + 4) (pixelPtr - back + 4)
      | none =>
        let columns ← evaluatedColumns image width threshold fuel (i + 4) (pixelPtr + 4)
        return [i, i + 1, i + 2, i + 3] ++ columns
    else some []

/-- The call evaluates the pixel in column `c` of row `r`. -/
def EvaluatesPixel (img : Raster) (threshold : UInt8) (r c : ℕ) : Prop :=
  (3 ≤ r ∧ r + 3 < img.height) ∧
    ∃ columns, evaluatedColumns img.data img.width threshold img.width 3 (r * img.width + 3)
      = some columns ∧ (c : ℤ) ∈ columns

/-- The value that was returned for the pixel, or 0 when it was not evaluated. -/
def IsOwnScore (img : Raster) (threshold : UInt8) (table : Buffer ℕ) (r c : ℕ) (v : UInt8) :
    Prop :=
  (EvaluatesPixel img threshold r c →
    evaluateCornerCandidate img.data (r * img.width + c) threshold.toNat table
      (patternOffset img.width) = some (v.toNat : ℤ)) ∧
  (¬ EvaluatesPixel img threshold r c → v = 0)

variable {img : Raster} {threshold : UInt8}

/-- No column that is examined without being evaluated passes the segment test. -/
lemma evaluatedColumns_spec (img : Raster) (threshold : UInt8) {y : ℤ} {fuel x : ℕ}
    (hrow : 3 ≤ y ∧ y + 3 < img.height) (hx : 3 ≤ x)
    (hfuel : (img.width : ℤ) - 7 - x ≤ fuel) :
    ∃ columns, evaluatedColumns img.data img.width threshold fuel x (y * img.width + x)
        = some columns ∧
      (∀ k ∈ columns, x ≤ k ∧ k < img.scanEnd threshold y fuel x) ∧
      ∀ k : ℕ, x ≤ k → k < img.scanEnd threshold y fuel x → (k : ℤ) ∉ columns →
        ¬ img.SegmentTest k y threshold.toNat := by
  induction fuel generalizing x with
  | zero =>
    have hdone : ¬ (x : ℤ) < img.width - 7 := by omega
    refine ⟨[], by rw [evaluatedColumns, if_neg hdone], by simp, fun k hk hk' => ?_⟩
    simp only [Raster.scanEnd] at hk'
    omega
  | succ fuel ih =>
    by_cases hw : (x : ℤ) < img.width - 7
    · have hnext := img.nextGroup_bound threshold y x
      obtain ⟨columns, hcolumns, hmem, hfail⟩ :=
        ih (x := img.nextGroup threshold y x) (by omega) (by omega)
      have hfuel' : (img.width : ℤ) - 7 - img.nextGroup threshold y x ≤ fuel := by omega
      have hend := (img.scanEnd_bound threshold y hfuel').1.1
      have htest := testGroup_spec img threshold (x := x) (by omega) (by omega) hrow
      simp only [evaluatedColumns, Raster.scanEnd, if_pos hw, htest, Option.bind_eq_bind,
        Option.bind_some]
      cases hback : img.groupBack threshold x y with
      | some back =>
        obtain ⟨hb, hnone⟩ := Raster.groupBack_spec hback
        have hstep : img.nextGroup threshold y x = x + 4 - back.toNat := by
          rw [Raster.nextGroup, hback, Option.getD_some]
        have hi : (x : ℤ) - back + 4 = img.nextGroup threshold y x := by omega
        have hptr : y * img.width + x - back + 4
            = y * img.width + img.nextGroup threshold y x := by omega
        refine ⟨columns, by simp only [hi, hptr, hcolumns], fun k hk => ?_,
          fun k hk hk' hnot => ?_⟩
        · have := hmem k hk
          omega
        · by_cases hpassed : k < img.nextGroup threshold y x
          · have h := hnone (k - x) (by omega)
            rwa [show (x : ℤ) + (k - x : ℕ) = k by omega] at h
          · exact hfail k (by omega) hk' hnot
      | none =>
        have hstep : img.nextGroup threshold y x = x + 4 := by
          rw [Raster.nextGroup, hback]
          rfl
        have hi : (x : ℤ) + 4 = img.nextGroup threshold y x := by omega
        have hptr : y * img.width + x + 4 = y * img.width + img.nextGroup threshold y x := by
          omega
        refine ⟨[(x : ℤ), x + 1, x + 2, x + 3] ++ columns, ?_, fun k hk => ?_,
          fun k hk hk' hnot => ?_⟩
        · simp only [hi, hptr, hcolumns, Option.bind_some, Option.pure_def]
        · rcases List.mem_append.mp hk with hk | hk
          · simp only [List.mem_cons, List.not_mem_nil, or_false] at hk
            omega
          · have := hmem k hk
            omega
        · simp only [List.mem_append, List.mem_cons, List.not_mem_nil, or_false, not_or] at hnot
          exact hfail k (by omega) hk' hnot.2
    · refine ⟨[], by rw [evaluatedColumns, if_neg hw], by simp, fun k hk hk' => ?_⟩
      rw [Raster.scanEnd, if_neg hw] at hk'
      omega

/-- In the rows that are compared, the own score of a pixel is the score of the scan. -/
lemma isOwnScore_iff {table : Buffer ℕ} {r c : ℕ} {v : UInt8}
    (htable : IsLookupTable threshold.toNat table) (hr : r + 3 < img.height) :
    IsOwnScore img threshold table r c v ↔ (v.toNat : ℤ) = img.scannedScore threshold r c := by
  have hzero : v = 0 ↔ (v.toNat : ℤ) = 0 := by
    rw [← UInt8.toNat_inj]
    exact Nat.cast_eq_zero.symm
  by_cases hr3 : 3 ≤ r
  · have hfuel : (img.width : ℤ) - 7 - (3 : ℕ) ≤ img.width := by omega
    obtain ⟨columns, hcolumns, hmem, hnone⟩ :=
      evaluatedColumns_spec img threshold (y := r) (by omega) le_rfl hfuel
    have hcorner : c ∈ img.rowCorners threshold r ↔ (3 ≤ c ∧ c < img.rowEnd threshold r) ∧
        img.cornerScore threshold c r ≠ 0 := by
      rw [Raster.rowCorners, if_pos ⟨hr3, hr⟩, Raster.mem_cornersBetween]
    have hevaluates : EvaluatesPixel img threshold r c ↔ (c : ℤ) ∈ columns := by
      constructor
      · rintro ⟨-, columns', hcolumns', hc⟩
        rwa [Option.some.inj (hcolumns.symm.trans hcolumns')]
      · exact fun hc => ⟨⟨hr3, hr⟩, columns, hcolumns, hc⟩
    rw [IsOwnScore, hevaluates]
    by_cases hc : (c : ℤ) ∈ columns
    · have hb := img.rowEnd_bound threshold r
      have hin := hmem c hc
      have hend : c < img.rowEnd threshold r := by exact_mod_cast hin.2
      have hscore : img.scannedScore threshold r c = img.cornerScore threshold c r := by
        rw [Raster.scannedScore]
        split_ifs with hmem
        · rfl
        · by_contra hne
          exact hmem (hcorner.mpr ⟨⟨by omega, hend⟩, fun h => hne h.symm⟩)
      rw [evaluateCornerCandidate_spec ⟨⟨by omega, by omega⟩, by omega, by omega⟩ htable, hscore]
      simp only [hc, not_true, false_imp_iff, true_imp_iff, and_true, Option.some.injEq]
      exact eq_comm
    · have hscore : img.scannedScore threshold r c = 0 := by
        apply Raster.scannedScore_of_not_mem
        intro hmem
        obtain ⟨hin, hne⟩ := hcorner.mp hmem
        exact hne (cornerScore_of_not_segmentTest (hnone c hin.1 hin.2 hc))
      rw [hscore, ← hzero]
      simp only [hc, false_imp_iff, not_false_iff, true_imp_iff, true_and]
  · have hnot : ¬ EvaluatesPixel img threshold r c := fun h => hr3 h.1.1
    have hscore : img.scannedScore threshold r c = 0 := by
      apply Raster.scannedScore_of_not_mem
      intro hmem
      exact hr3 (Raster.rowCorners_bound hmem).2.1.1
    rw [IsOwnScore, hscore, ← hzero]
    simp only [hnot, false_imp_iff, not_false_iff, true_imp_iff, true_and]

/-! ### What a comparison reads -/

/-- Rows that are at most two apart have different slots. -/
lemma cellAddress_inj {w : ℕ} {n m : ℕ × ℕ} (hn : n.2 < w) (hm : m.2 < w)
    (hrow : n.1 ≤ m.1 + 2 ∧ m.1 ≤ n.1 + 2) : cellAddress w n = cellAddress w m ↔ n = m := by
  constructor
  · intro h
    have hslot : (n.1 : ℤ) % 3 = (m.1 : ℤ) % 3 := by
      by_contra hne
      have hdisjoint := row_disjoint (c := (n.2 : ℤ)) (w := w) hne (by omega) (by omega)
      simp only [cellAddress, rowScoresStart] at h
      omega
    simp only [cellAddress, hslot, add_right_inj, Nat.cast_inj] at h
    exact Prod.ext (by omega) h
  · rintro rfl
    rfl

/-- The comparison loop needs a cell when it beats all neighbours that come before that cell. -/
lemma foldlM_beats_erase {ι : Type*} {scores : Buffer UInt8} (score : UInt8) (a : ℤ) {ns : List ι}
    {address : ι → ℤ} {value : ι → UInt8}
    (h : ∀ n ∈ ns, scores.read (address n) = some (value n)) (ok : Bool) :
    (ns.map address).foldlM (fun ok n => if ok then
        do return decide (score > (← (scores.erase a).read n)) else some false) ok = none ↔
      ok = true ∧ ∃ before n after, ns = before ++ n :: after ∧ address n = a ∧
        ∀ m ∈ before, value m < score := by
  induction ns generalizing ok with
  | nil => simp
  | cons n₀ ns ih =>
    have ih := ih (fun n hn => h n (List.mem_cons_of_mem _ hn))
    cases ok with
    | false => simpa using ih false
    | true =>
      by_cases ha : address n₀ = a
      · subst ha
        simp only [List.map_cons, List.foldlM_cons, Buffer.read_erase_self]
        exact iff_of_true rfl ⟨trivial, [], n₀, ns, rfl, rfl, by simp⟩
      · have hread := h n₀ List.mem_cons_self
        simp only [List.map_cons, List.foldlM_cons, Buffer.read_erase_of_ne ha, hread, if_true,
          Option.bind_eq_bind, Option.bind_some, Option.pure_def, true_and] at ih ⊢
        rw [ih, decide_eq_true_eq]
        constructor
        · rintro ⟨hlt, before, n, after, rfl, hn, hbefore⟩
          exact ⟨n₀ :: before, n, after, rfl, hn, by simpa using ⟨hlt, hbefore⟩⟩
        · rintro ⟨before, n, after, heq, hn, hbefore⟩
          cases before with
          | nil =>
            obtain ⟨rfl, -⟩ := List.cons.inj heq
            exact absurd hn ha
          | cons m before =>
            obtain ⟨rfl, rfl⟩ := List.cons.inj heq
            exact ⟨hbefore n₀ List.mem_cons_self, before, n, after, rfl, hn,
              fun m hm => hbefore m (List.mem_cons_of_mem _ hm)⟩

lemma reads_isMaximum_iff {y c r d : ℕ} {scores : Buffer UInt8} (hc : 1 ≤ c)
    (hcw : c + 1 < img.width) (hholds : ∀ r, y ≤ r → r ≤ y + 2 → HoldsScores img threshold r scores)
    (hr : y ≤ r ∧ r ≤ y + 2) (hd : c ≤ d + 1 ∧ d ≤ c + 1) :
    Buffer.Reads (isMaximum · (rowScoresStart img.width ((y + 1 : ℕ) % 3))
        (rowScoresStart img.width (y % 3)) (rowScoresStart img.width ((y + 2 : ℕ) % 3)) c) scores
        (cellAddress img.width (r, d)) ↔
      (r, d) = (y + 1, c) ∨ ∃ before after, neighbours (y + 1) c = before ++ (r, d) :: after ∧
        ∀ m ∈ before, img.heldScore threshold m.1 m.2 < img.heldScore threshold (y + 1) c := by
  have hnear : ∀ n ∈ neighbours (y + 1) c,
      (y ≤ n.1 ∧ n.1 ≤ y + 2) ∧ (c ≤ n.2 + 1 ∧ n.2 ≤ c + 1) := by
    intro n hn
    have h := (mem_neighbours (by omega) hc).mp hn
    omega
  have hread : ∀ n : ℕ × ℕ, (y ≤ n.1 ∧ n.1 ≤ y + 2) → n.2 ≤ c + 1 →
      scores.read (cellAddress img.width n) = some (img.heldScore threshold n.1 n.2) :=
    fun n hn hn' => hholds n.1 hn.1 hn.2 n.2 (by omega)
  have hsome := isMaximum_spec hc hcw hholds
  rw [Buffer.Reads, hsome, isMaximum_eq hc]
  simp only [Option.isSome_some, true_and]
  by_cases hself : (r, d) = (y + 1, c)
  · rw [hself, Buffer.read_erase_self]
    exact iff_of_true rfl (Or.inl rfl)
  · have hne : cellAddress img.width (y + 1, c) ≠ cellAddress img.width (r, d) := by
      rw [ne_eq, cellAddress_inj (by simp only; omega) (by simp only; omega) (by simp only; omega)]
      exact fun h => hself h.symm
    have hloop := foldlM_beats_erase (img.heldScore threshold (y + 1) c)
      (cellAddress img.width (r, d))
      (fun n hn => hread n (hnear n hn).1 (hnear n hn).2.2) true
    rw [Buffer.read_erase_of_ne hne, hread _ (by simp only; omega) (by simp only; omega)]
    simp only [Option.bind_eq_bind, Option.bind_some, hself, false_or] at hloop ⊢
    rw [hloop]
    simp only [true_and]
    constructor
    · rintro ⟨before, n, after, heq, hn, hbefore⟩
      have hmem : n ∈ neighbours (y + 1) c := by simp [heq]
      have h := hnear n hmem
      rw [cellAddress_inj (by omega) (by simp only; omega) (by simp only; omega)] at hn
      exact ⟨before, after, hn ▸ heq, hbefore⟩
    · rintro ⟨before, after, heq, hbefore⟩
      exact ⟨before, (r, d), after, heq, rfl, hbefore⟩

/-! ### The comparisons of a call -/

/-- The call with a threshold and a keypoint array is, in the iteration for row `j`, about to
compare entry `k` of row `j - 1` with its neighbours: the iterations for the rows before are done,
row `j` has been examined, and the corners before entry `k` have been compared. -/
structure Comparison (img : Raster) (threshold : UInt8) (outKeypoints : ℕ → KeyPoint)
    (capacity : ℕ) (j : ℤ) where
  table : Buffer ℕ
  rowScores : Buffer UInt8
  e : Extraction
  s : RowScan
  positions : Buffer ℕ
  number : ℕ
  k : ℕ
  idx : ℕ
  out : OutKeypoints
  table_eq : thresholdLookupTable threshold.toNat = some table
  rowScores_eq : fastClearBuffer (Buffer.blank (((img.width : ℤ) * 3 / 4 + 1) * 4).toNat)
    ((img.width : ℤ) * 3).toNat = some rowScores
  rows : extractRows img.data img.width img.height threshold table capacity
    ((scannedRows img.height).take (j - 3).toNat)
    ⟨rowScores, Buffer.blank (((img.width : ℤ) + 1) * 3 * 2).toNat, ⟨outKeypoints, 0, false⟩⟩
      = some e
  rows_space : e.out.outOfSpace = false
  examined : examineRow ⟨img.data, img.width, threshold, table,
      rowScoresStart img.width ((j - 3) % 3), rowCornerPositionsStart img.width ((j - 3) % 3)⟩
    img.height j ⟨3, j * img.width + 3, e.rowScores, e.rowCornerPositions, 0⟩ = some s
  positions_eq : s.positions.write (rowCornerPositionsStart img.width ((j - 3) % 3) - 1) s.corners
    = some positions
  number_eq : positions.read (rowCornerPositionsStart img.width ((j - 1) % 3) - 1) = some number
  lt_number : k < number
  idx_eq : positions.read (rowCornerPositionsStart img.width ((j - 1) % 3) + k) = some idx
  before : suppressRow s.scores positions capacity (rowScoresStart img.width ((j - 1) % 3))
    (rowScoresStart img.width ((j - 2) % 3)) (rowScoresStart img.width ((j - 3) % 3))
    (rowCornerPositionsStart img.width ((j - 1) % 3)) j (List.range k) e.out = some out
  before_space : out.outOfSpace = false

namespace Comparison

variable {outKeypoints : ℕ → KeyPoint} {capacity : ℕ} {j : ℤ}

/-- The comparison as a computation on the score buffer. -/
def compare (cmp : Comparison img threshold outKeypoints capacity j) (scores : Buffer UInt8) :
    Option Bool :=
  isMaximum scores (rowScoresStart img.width ((j - 1) % 3))
    (rowScoresStart img.width ((j - 2) % 3)) (rowScoresStart img.width ((j - 3) % 3)) cmp.idx

/-- Every value that the comparison reads in the rows `j - 2`, `j - 1` and `j` is the own score of
its pixel. -/
def ReadsOwnScores (cmp : Comparison img threshold outKeypoints capacity j) : Prop :=
  ∀ r c : ℕ, (j - 2 ≤ r ∧ r ≤ j) → (cmp.idx ≤ c + 1 ∧ c ≤ cmp.idx + 1) →
    Buffer.Reads cmp.compare cmp.s.scores (cellAddress img.width (r, c)) →
      ∀ v, cmp.s.scores.read (cellAddress img.width (r, c)) = some v →
        IsOwnScore img threshold cmp.table r c v

end Comparison

lemma take_scannedRows {height n : ℕ} (hn : n ≤ height - 5) :
    (scannedRows height).take n = (List.range' (2 + 1) n).map (Nat.cast : ℕ → ℤ) := by
  rw [scannedRows_eq, ← List.map_take, List.take_range'_of_length_ge hn]

/-- The slots of the three rows in the iteration for row `r + 2`. -/
lemma slots_eq (r : ℕ) : (((r + 1 + 1 : ℕ) : ℤ) - 3) % 3 = ((r + 1 + 1 : ℕ) : ℤ) % 3 ∧
    (((r + 1 + 1 : ℕ) : ℤ) - 1) % 3 = ((r + 1 : ℕ) : ℤ) % 3 ∧
      (((r + 1 + 1 : ℕ) : ℤ) - 2) % 3 = (r : ℤ) % 3 := by
  omega

/-- A comparison finds the held scores in the three rows, and its column is a corner. -/
lemma Comparison.spec {outKeypoints : ℕ → KeyPoint} {capacity y : ℕ} (hw : img.width ≤ 32768)
    (hy : 3 ≤ y ∧ y + 5 ≤ img.height)
    (cmp : Comparison img threshold outKeypoints capacity (y + 1 : ℕ)) :
    IsLookupTable threshold.toNat cmp.table ∧
      (∀ r, y ≤ r + 1 → r ≤ y + 1 → HoldsScores img threshold r cmp.s.scores) ∧
      cmp.idx ∈ img.rowCorners threshold y := by
  obtain ⟨table, rowScores, e, s, positions, number, k, idx, out, htable, hrowScores, hrows, hspace,
    hexamined, hpositions, hnumber, hk, hidx, -, -⟩ := cmp
  obtain ⟨r, rfl⟩ := Nat.exists_eq_add_of_le' (show 1 ≤ y by omega)
  obtain ⟨hslot, hslot', -⟩ := slots_eq r
  have htake : (((r + 1 + 1 : ℕ) : ℤ) - 3).toNat = r + 1 - 2 := by omega
  rw [hslot] at hexamined hpositions
  rw [hslot'] at hnumber hidx
  obtain ⟨table', htable', hlookup⟩ := thresholdLookupTable_spec threshold.toNat
  obtain rfl : table' = table := Option.some.inj (htable'.symm.trans htable)
  obtain ⟨rowScores', hrowScores', hring⟩ := exists_rowScores img threshold
  obtain rfl : rowScores' = rowScores := Option.some.inj (hrowScores'.symm.trans hrowScores)
  obtain ⟨e', hrows', -, hring'⟩ := extractRows_spec capacity (n := r + 1 - 2)
    (e := ⟨rowScores', _, ⟨outKeypoints, 0, false⟩⟩) hw hlookup le_rfl hring rfl
  rw [htake, take_scannedRows (by omega)] at hrows
  obtain rfl : e' = e := Option.some.inj (hrows'.symm.trans hrows)
  have hring' := hring' hspace
  rw [show 2 + (r + 1 - 2) = r + 1 by omega] at hring'
  obtain ⟨s', hs', hscanned⟩ := examineRow_spec (y := r + 1 + 1) hw hlookup (by omega)
    hring'.scores_size hring'.positions_size
  obtain rfl : s' = s := Option.some.inj (hs'.symm.trans hexamined)
  obtain ⟨written, hwritten, hring'', hcorners⟩ := ringHolds_succ (by omega) hring' hscanned
  obtain rfl : written = positions := Option.some.inj (hwritten.symm.trans hpositions)
  obtain ⟨hcount, hread⟩ := hcorners hy.1
  obtain rfl : (img.rowCorners threshold (r + 1)).length = number :=
    Option.some.inj (hcount.symm.trans hnumber)
  refine ⟨hlookup, fun q hq hq' => hring''.scores q hq' (by omega), ?_⟩
  exact List.mem_of_getElem? ((hread k hk).symm.trans hidx)

/-- Every corner is compared in a call with enough space. -/
lemma Comparison.exists_of_mem {y idx : ℕ} (hw : img.width ≤ 32768)
    (hy : 3 ≤ y ∧ y + 5 ≤ img.height) (hidx : idx ∈ img.rowCorners threshold y) :
    ∃ outKeypoints capacity,
      ∃ cmp : Comparison img threshold outKeypoints capacity (y + 1 : ℕ), cmp.idx = idx := by
  obtain ⟨k, hk, rfl⟩ := List.mem_iff_getElem.mp hidx
  -- the keypoints pushed before this corner is compared
  let rows := (List.range' 2 (y - 2)).flatMap (img.reportedPoints threshold)
  let corners := (((List.range k).map fun k => (img.rowCorners threshold y)[k]?.getD 0).filter
    fun c => img.BeatsNeighbours threshold y c).map (Raster.keyPoint · y)
  let capacity := rows.length + corners.length
  obtain ⟨table, htable, hlookup⟩ := thresholdLookupTable_spec threshold.toNat
  obtain ⟨rowScores, hrowScores, hring⟩ := exists_rowScores img threshold
  obtain ⟨e, hrows, hout, hring⟩ := extractRows_spec capacity (n := y - 2)
    (e := ⟨rowScores, _, ⟨noKeypoints, 0, false⟩⟩) hw hlookup le_rfl hring rfl
  rw [foldl_push rfl (Nat.zero_le _)] at hout
  have hspace : e.out.outOfSpace = false := by
    rw [hout]
    exact decide_eq_false (by simp only [Nat.zero_add, capacity, rows]; omega)
  have hsize : e.out.size = rows.length := by
    rw [hout]
    simp only [Nat.zero_add, capacity, rows]
    omega
  have hring := hring hspace
  rw [show 2 + (y - 2) = y by omega] at hring
  obtain ⟨s, hs, hscanned⟩ := examineRow_spec (y := y + 1) hw hlookup (by omega)
    hring.scores_size hring.positions_size
  obtain ⟨positions, hpositions, hring', hcorners⟩ := ringHolds_succ (by omega) hring hscanned
  have hcorners := hcorners hy.1
  obtain ⟨r, rfl⟩ := Nat.exists_eq_add_of_le' (show 1 ≤ y by omega)
  have hlt : ∀ i ∈ List.range k, i < (img.rowCorners threshold (r + 1)).length :=
    fun i hi => (List.mem_range.mp hi).trans hk
  have hsuppress := suppressRow_spec capacity
    (fun i hi => (suppression_reads hring' hcorners (hlt i hi)).1)
    (fun i hi => (suppression_reads hring' hcorners (hlt i hi)).2) hspace
  have hidx := (suppression_reads hring' hcorners hk).1
  rw [List.getElem?_eq_getElem hk, Option.getD_some] at hidx
  obtain ⟨hslot, hslot', hslot''⟩ := slots_eq r
  have htake : (((r + 1 + 1 : ℕ) : ℤ) - 3).toNat = r + 1 - 2 := by omega
  refine ⟨noKeypoints, capacity, {
    table, rowScores, e, s, positions
    number := (img.rowCorners threshold (r + 1)).length
    k
    idx := (img.rowCorners threshold (r + 1))[k]
    out := corners.foldl (OutKeypoints.push capacity) e.out
    table_eq := htable
    rowScores_eq := hrowScores
    rows := ?_
    rows_space := hspace
    examined := ?_
    positions_eq := ?_
    number_eq := ?_
    lt_number := hk
    idx_eq := ?_
    before := ?_
    before_space := ?_ }, rfl⟩
  · rw [htake, take_scannedRows (by omega)]
    exact hrows
  · rw [hslot]
    exact hs
  · rw [hslot]
    exact hpositions
  · rw [hslot']
    exact hcorners.1
  · rw [hslot']
    exact hidx
  · rw [hslot, hslot', hslot'']
    exact hsuppress
  · rw [foldl_push hspace (by simp only [hsize, capacity]; omega)]
    exact decide_eq_false (by simp only [hsize, capacity]; omega)

/-! ### When all reads are right -/

/-- The comparison of the corner in column `idx` of row `y` stops before every left-over score: one
of the neighbours that come before has at least the score of the corner. -/
def Raster.StopsBeforeLeftOver (img : Raster) (threshold : UInt8) (y idx : ℕ) : Prop :=
  ∀ before n after, neighbours y idx = before ++ n :: after →
    (∃ v, LeftOver img threshold n.2 v n.1) →
      ∃ m ∈ before, img.cornerScore threshold idx y ≤ img.scannedScore threshold m.1 m.2

/-- A read score belongs to its pixel unless it is left over. -/
lemma toNat_heldScore_eq_scannedScore_iff {r c : ℕ} (hr : r + 3 < img.height) :
    ((img.heldScore threshold r c).toNat : ℤ) = img.scannedScore threshold r c ↔
      ∀ v, ¬ Raster.LeftOver img threshold c v r := by
  constructor
  · intro h v hv
    rw [hv.toNat_heldScore, Raster.scannedScore_of_not_mem hv.not_mem_rowCorners] at h
    exact hv.pos.ne' h
  · exact Raster.toNat_heldScore_of_not_leftOver hr

section

variable {q idx : ℕ} (hcorner : idx ∈ img.rowCorners threshold (q + 1))

include hcorner

/-- When all reads are right, what is compared before a cell that could be read is not left over. -/
lemma not_leftOver_of_readsOwn (hq : q + 6 ≤ img.height)
    (hreads : ∀ before n after, neighbours (q + 1) idx = before ++ n :: after →
      (∀ m ∈ before, img.heldScore threshold m.1 m.2 < img.heldScore threshold (q + 1) idx) →
        ((img.heldScore threshold n.1 n.2).toNat : ℤ) = img.scannedScore threshold n.1 n.2)
    {before : List (ℕ × ℕ)} {n : ℕ × ℕ} {after : List (ℕ × ℕ)}
    (heq : neighbours (q + 1) idx = before ++ n :: after)
    (hlower : ∀ m ∈ before, img.scannedScore threshold m.1 m.2
      < img.cornerScore threshold idx (q + 1 : ℕ)) (v : ℤ) :
    ¬ Raster.LeftOver img threshold n.2 v n.1 := by
  obtain ⟨hx, -⟩ := Raster.rowCorners_bound hcorner
  induction hlen : before.length using Nat.strong_induction_on generalizing before n after v with
  | _ len ih =>
    have hnear : ∀ m ∈ neighbours (q + 1) idx, m.1 + 3 < img.height := by
      intro m hm
      have h := (mem_neighbours (by omega) (by omega)).mp hm
      omega
    have hheld : ∀ m ∈ before,
        img.heldScore threshold m.1 m.2 < img.heldScore threshold (q + 1) idx := by
      intro m hm
      obtain ⟨first, last, rfl⟩ := List.append_of_mem hm
      have heq' : neighbours (q + 1) idx = first ++ m :: (last ++ n :: after) := by
        rw [heq, List.append_assoc, List.cons_append]
      have hclean : ∀ v, ¬ Raster.LeftOver img threshold m.2 v m.1 := fun v =>
        ih first.length (by rw [← hlen]; simp) heq'
          (fun m' hm' => hlower m' (List.mem_append_left _ hm')) v rfl
      rw [UInt8.lt_iff_toNat_lt, ← Nat.cast_lt (α := ℤ), Raster.toNat_heldScore_of_mem hcorner,
        Raster.toNat_heldScore_of_not_leftOver (hnear m (by rw [heq]; simp)) hclean]
      exact hlower m hm
    have hown := hreads before n after heq hheld
    rw [toNat_heldScore_eq_scannedScore_iff (hnear n (by rw [heq]; simp))] at hown
    exact hown v

/-- The reads are right exactly when the comparison stops before the left-over scores. -/
lemma forall_read_iff (hq : q + 6 ≤ img.height) :
    (∀ before n after, neighbours (q + 1) idx = before ++ n :: after →
      (∀ m ∈ before, img.heldScore threshold m.1 m.2 < img.heldScore threshold (q + 1) idx) →
        ((img.heldScore threshold n.1 n.2).toNat : ℤ) = img.scannedScore threshold n.1 n.2) ↔
      img.StopsBeforeLeftOver threshold (q + 1) idx := by
  constructor
  · rintro hreads before n after heq ⟨v, hv⟩
    by_contra hnone
    push Not at hnone
    exact not_leftOver_of_readsOwn hcorner hq hreads heq hnone v hv
  · intro hstops before n after heq hheld
    have hn : n ∈ neighbours (q + 1) idx := by
      rw [heq]
      simp
    obtain ⟨hx, -, -, hne⟩ := Raster.rowCorners_bound hcorner
    have hnear := (mem_neighbours (by omega) (by omega)).mp hn
    rw [toNat_heldScore_eq_scannedScore_iff (by omega)]
    intro v hv
    obtain ⟨m, hm, hle⟩ := hstops before n after heq ⟨v, hv⟩
    have hlt := hheld m hm
    rw [UInt8.lt_iff_toNat_lt, ← Nat.cast_lt (α := ℤ),
      Raster.toNat_heldScore_of_mem hcorner] at hlt
    -- the neighbour is a corner itself, so it is not left over
    have hpos := img.cornerScore_bound threshold idx (q + 1 : ℕ)
    by_cases hmem : m.2 ∈ img.rowCorners threshold m.1
    · rw [Raster.scannedScore, if_pos hmem] at hle
      rw [Raster.toNat_heldScore_of_mem hmem] at hlt
      omega
    · rw [Raster.scannedScore_of_not_mem hmem] at hle
      omega

end

/-- A comparison reads own scores exactly when it stops before the left-over scores. -/
lemma Comparison.readsOwnScores_iff {outKeypoints : ℕ → KeyPoint} {capacity y : ℕ}
    (hw : img.width ≤ 32768) (hy : 3 ≤ y ∧ y + 5 ≤ img.height)
    (cmp : Comparison img threshold outKeypoints capacity (y + 1 : ℕ)) :
    cmp.ReadsOwnScores ↔ img.StopsBeforeLeftOver threshold y cmp.idx := by
  obtain ⟨hlookup, hholds, hcorner⟩ := cmp.spec hw hy
  obtain ⟨q, rfl⟩ := Nat.exists_eq_add_of_le' (show 1 ≤ y by omega)
  obtain ⟨hx, -⟩ := Raster.rowCorners_bound hcorner
  have hcompare : cmp.compare = (isMaximum · (rowScoresStart img.width ((q + 1 : ℕ) % 3))
      (rowScoresStart img.width (q % 3)) (rowScoresStart img.width ((q + 2 : ℕ) % 3)) cmp.idx) := by
    obtain ⟨hslot, hslot', hslot''⟩ := slots_eq q
    funext scores
    rw [Comparison.compare, hslot, hslot', hslot'']
  have hreads : ∀ r c : ℕ, (q ≤ r ∧ r ≤ q + 2) → (cmp.idx ≤ c + 1 ∧ c ≤ cmp.idx + 1) → _ :=
    fun r c hr hc => reads_isMaximum_iff (r := r) (d := c) (by omega)
      (by omega) (fun r hr hr' => hholds r (by omega) (by omega)) hr hc
  have hread : ∀ r c : ℕ, (q ≤ r ∧ r ≤ q + 2) → c ≤ cmp.idx + 1 →
      cmp.s.scores.read (cellAddress img.width (r, c)) = some (img.heldScore threshold r c) :=
    fun r c hr hc => hholds r (by omega) (by omega) c (by omega)
  rw [← forall_read_iff hcorner (by omega), Comparison.ReadsOwnScores, hcompare]
  constructor
  · intro h before n after heq hheld
    have hmem : n ∈ neighbours (q + 1) cmp.idx := by
      rw [heq]
      simp
    have hn := (mem_neighbours (by omega) (by omega)).mp hmem
    have hown := h n.1 n.2 (by omega) (by omega)
      ((hreads n.1 n.2 (by omega) (by omega)).mpr (Or.inr ⟨before, after, heq, hheld⟩)) _
      (hread n.1 n.2 (by omega) (by omega))
    exact (isOwnScore_iff hlookup (by omega)).mp hown
  · intro h r c hr hc hcell v hv
    rw [hread r c (by omega) hc.2, Option.some.injEq] at hv
    rw [← hv, isOwnScore_iff hlookup (by omega)]
    rcases (hreads r c (by omega) hc).mp hcell with hself | ⟨before, after, heq, hheld⟩
    · obtain ⟨rfl, rfl⟩ := Prod.mk.inj hself
      rw [Raster.toNat_heldScore_of_mem hcorner, Raster.scannedScore, if_pos hcorner]
    · exact h before (r, c) after heq hheld

/-- In all calls on an image the comparisons above the last row read own scores, exactly when the
comparison of every corner stops before the left-over scores. -/
theorem comparisons_readOwnScores_iff (img : Raster) (threshold : UInt8) (hw : img.width ≤ 32768) :
    (∀ (outKeypoints : ℕ → KeyPoint) (capacity y : ℕ), 3 ≤ y → y + 5 ≤ img.height →
      ∀ cmp : Comparison img threshold outKeypoints capacity (y + 1 : ℕ), cmp.ReadsOwnScores) ↔
      ∀ y idx : ℕ, 3 ≤ y → y + 5 ≤ img.height → idx ∈ img.rowCorners threshold y →
        img.StopsBeforeLeftOver threshold y idx := by
  constructor
  · intro h y idx hy hyh hidx
    obtain ⟨outKeypoints, capacity, cmp, rfl⟩ := Comparison.exists_of_mem hw ⟨hy, hyh⟩ hidx
    exact (cmp.readsOwnScores_iff hw ⟨hy, hyh⟩).mp (h outKeypoints capacity y hy hyh cmp)
  · intro h outKeypoints capacity y hy hyh cmp
    have hcorner := (cmp.spec hw ⟨hy, hyh⟩).2.2
    exact (cmp.readsOwnScores_iff hw ⟨hy, hyh⟩).mpr (h y cmp.idx hy hyh hcorner)

/-- One pixel, far from row 3. -/
def soleDot : Raster := ⟨15, 10, fun x y => if x = 5 ∧ y = 5 then 24 else 0⟩

/-- Row 3 has no corner that could be left over, so the comparison of the corner `(5, 5)`, like
every other, reads own scores. -/
theorem comparisons_readOwnScores_soleDot :
    (∀ (outKeypoints : ℕ → KeyPoint) (capacity y : ℕ), 3 ≤ y → y + 5 ≤ soleDot.height →
      ∀ cmp : Comparison soleDot 10 outKeypoints capacity (y + 1 : ℕ), cmp.ReadsOwnScores) ∧
    ∃ outKeypoints capacity,
      ∃ cmp : Comparison soleDot 10 outKeypoints capacity (5 + 1 : ℕ), cmp.idx = 5 := by
  constructor
  · refine (comparisons_readOwnScores_iff soleDot 10 (by decide)).mpr
      fun y idx hy hyh hidx before n after heq hleft => ?_
    simp only [soleDot] at hyh
    obtain ⟨hx, -⟩ := Raster.rowCorners_bound hidx
    have hn : n ∈ neighbours y idx := by
      rw [heq]
      simp
    have hrow := (mem_neighbours (by omega) (by omega)).mp hn
    obtain ⟨v, hv⟩ := hleft
    exact absurd hv (Raster.not_leftOver_of_rowCorners_three (by decide +kernel) (by omega))
  · have hcorner : 5 ∈ soleDot.rowCorners 10 5 := by decide +kernel
    exact Comparison.exists_of_mem (by decide) (by decide) hcorner

/-- Bright pixels in the rows 3 and 5, and three in row 9 that make the first group of row 6 step
back, so that the scan of row 6 ends three columns earlier than that of row 3. -/
def staleDots : Raster :=
  ⟨15, 10, fun x y =>
    if x = 9 ∧ y = 3 then 255
    else if x = 9 ∧ y = 5 then 200
    else if (4 ≤ x ∧ x ≤ 6) ∧ y = 9 then 255
    else 100⟩

/-- The corner of row 5 is compared with the score 154 of the corner `(9, 3)` as if it was one of
row 6. -/
theorem staleDots_reads_leftOver : ∃ outKeypoints capacity,
    ∃ cmp : Comparison staleDots 10 outKeypoints capacity (5 + 1 : ℕ), ¬ cmp.ReadsOwnScores := by
  have hrow5 : staleDots.rowCorners 10 5 = [9] := by decide +kernel
  have hcorner : 9 ∈ staleDots.rowCorners 10 5 := by
    rw [hrow5]
    exact List.mem_singleton.mpr rfl
  obtain ⟨outKeypoints, capacity, cmp, hidx⟩ :=
    Comparison.exists_of_mem (by decide) (by decide) hcorner
  have hleft : Raster.LeftOver staleDots 10 9 154 6 :=
    .corner (r := 3) (by decide +kernel) (by decide +kernel) (by decide +kernel)
  refine ⟨outKeypoints, capacity, cmp, fun h => ?_⟩
  rw [cmp.readsOwnScores_iff (by decide) (by decide), hidx] at h
  obtain ⟨m, hm, hle⟩ := h [(5, 10), (5, 8), (4, 8), (4, 9), (4, 10), (6, 8)] (6, 9) [(6, 10)] rfl
    ⟨154, hleft⟩
  have hrow4 : staleDots.rowCorners 10 4 = [] := by decide +kernel
  have hrow6 : staleDots.rowCorners 10 6 = [] := by decide +kernel
  have hzero : ∀ m ∈ [(5, 10), (5, 8), (4, 8), (4, 9), (4, 10), (6, 8)],
      staleDots.scannedScore 10 m.1 m.2 = 0 := by
    simp [Raster.scannedScore, hrow4, hrow5, hrow6]
  have hpos : 0 < staleDots.cornerScore 10 (9 : ℕ) (5 : ℕ) := by decide +kernel
  rw [hzero m hm] at hle
  exact hpos.not_ge hle

end VioFrontend
