import VioFrontend.Library.Loops
import VioFrontend.Library.Segments
import VioFrontend.Util.CString

/-!
# Sorting of strings

`alg::quicksort` sorts an array of C strings in place, shorter strings first and strings of one
length by `strcmp`. The array is the list of its cells; a read or an exchange outside of it
fails, so a run with a result made every access in range.

The partition loop is described on a decomposition of the array: what comes before the segment,
the cells less than the pivot, the other cells seen so far, and the rest, which ends with the
pivot. The order is that of the key `(length, bytes)` in a linear order, and the names of numbered
files are ordered by it as their numbers are.
-/

namespace VioFrontend

open Segments

/-! ### The algorithm -/

namespace alg

def swap (array : List CString) (a b : ℕ) : Option (List CString) := exchange array a b

/-- One turn of the partition loop on the `length` cells from `base` on. -/
def partitionStep (base length : ℕ) (s : List CString × ℕ) (i : ℕ) :
    Option (List CString × ℕ) := do
  let (array, pivot) := s
  let first ← array[base + i]?
  let second ← array[base + (length - 1)]?
  let first_length := first.strlen
  let second_length := second.strlen
  if first_length < second_length ∨
      (first_length = second_length ∧ CString.strcmp first second < 0) then do
    let array ← swap array (base + i) (base + pivot)
    pure (array, pivot + 1)
  else
    pure (array, pivot)

/-- `alg::quicksort` on the `length` cells from `base` on; `fuel` bounds the depth of its calls. -/
def quicksort : ℕ → List CString → ℕ → ℕ → Option (List CString)
  | fuel, array, base, length =>
    if length ≤ 1 then some array
    else
      match fuel with
      | 0        => none
      | fuel + 1 => do
        let (array, pivot) ← (List.range length).foldlM (partitionStep base length) (array, 0)
        let array ← swap array (base + pivot) (base + (length - 1))
        let array ← quicksort fuel array base pivot
        quicksort fuel array (base + (pivot + 1)) (length - (pivot + 1))

end alg

/-! ### The names of numbered files -/

namespace CString

/-- The decimal digits of a number in ASCII, without leading zeros. -/
def decimal (n : ℕ) : List UInt8 := (Nat.toDigits 10 n).map fun c => UInt8.ofNat c.toNat

/-- The bytes of `.png`. -/
def pngExtension : List UInt8 := [46, 112, 110, 103]

lemma decimal_of_lt {n : ℕ} (h : n < 10) : decimal n = [UInt8.ofNat (48 + n)] := by
  rw [decimal, Nat.toDigits_of_lt_base h, List.map_singleton, Nat.toNat_digitChar_of_lt_ten h]

/-- The last digit comes off the end. -/
lemma decimal_of_le {n : ℕ} (h : 10 ≤ n) :
    decimal n = decimal (n / 10) ++ [UInt8.ofNat (48 + n % 10)] := by
  have hd : n % 10 < 10 := Nat.mod_lt n (by decide)
  rw [decimal, Nat.toDigits_of_base_le (by decide) h, List.map_append, List.map_singleton,
    Nat.toNat_digitChar_of_lt_ten hd]
  rfl

lemma toNat_digit {d : ℕ} (h : d < 10) : (UInt8.ofNat (48 + d)).toNat = 48 + d := by
  rw [UInt8.toNat_ofNat']
  omega

lemma decimal_ne_nil (n : ℕ) : decimal n ≠ [] := by
  rcases Nat.lt_or_ge n 10 with h | h
  · simp [decimal_of_lt h]
  · simp [decimal_of_le h]

lemma zero_notMem_decimal (n : ℕ) : 0 ∉ decimal n := by
  have hdigit {d : ℕ} (h : d < 10) : (0 : UInt8) ≠ UInt8.ofNat (48 + d) := fun h0 => by
    have := congrArg UInt8.toNat h0
    rw [toNat_digit h, UInt8.toNat_zero] at this
    omega
  induction n using Nat.strong_induction_on with
  | _ n ih =>
    rcases Nat.lt_or_ge n 10 with h | h
    · rw [decimal_of_lt h, List.mem_singleton]
      exact hdigit h
    · rw [decimal_of_le h, List.mem_append, List.mem_singleton, not_or]
      exact ⟨ih (n / 10) (by omega), hdigit (Nat.mod_lt n (by decide))⟩

/-- The file name of a numbered image. -/
def pngName (n : ℕ) : CString where
  bytes := decimal n ++ pngExtension
  zero_notMem := by
    rw [List.mem_append, not_or]
    exact ⟨zero_notMem_decimal n, by decide⟩

lemma append_lt_append {as bs cs ds : List ℕ} (hlen : as.length = bs.length) (h : as < bs) :
    as ++ cs < bs ++ ds := by
  induction as generalizing bs with
  | nil =>
    obtain rfl : bs = [] := List.eq_nil_of_length_eq_zero hlen.symm
    exact absurd h (lt_irrefl _)
  | cons a as ih =>
    cases bs with
    | nil => exact absurd hlen (by simp)
    | cons b bs =>
      rw [List.cons_append, List.cons_append, List.cons_lt_cons_iff]
      refine (List.cons_lt_cons_iff.mp h).imp_right fun hrest => ⟨hrest.1, ?_⟩
      exact ih (Nat.succ.inj hlen) hrest.2

/-- Endings of one length do not change the order of different strings. -/
lemma byteKey_append_lt {as bs cs ds : List UInt8} (h : byteKey as < byteKey bs)
    (hlen : cs.length = ds.length) : byteKey (as ++ cs) < byteKey (bs ++ ds) := by
  rw [byteKey_lt_iff] at h ⊢
  simp only [List.length_append, List.map_append, hlen, Nat.add_right_cancel_iff]
  rcases h with h | ⟨heq, h⟩
  · exact Or.inl (by omega)
  · exact Or.inr ⟨heq, append_lt_append (by simpa using heq) h⟩

lemma byteKey_append_left {as cs ds : List UInt8} (h : byteKey cs < byteKey ds) :
    byteKey (as ++ cs) < byteKey (as ++ ds) := by
  rw [byteKey_lt_iff] at h ⊢
  simp only [List.length_append, List.map_append, Nat.add_left_cancel_iff]
  exact h.imp (fun h => by omega) fun h => ⟨h.1, List.append_left_lt h.2⟩

lemma byteKey_digit_lt {d e : ℕ} (he : e < 10) (h : d < e) :
    byteKey [UInt8.ofNat (48 + d)] < byteKey [UInt8.ofNat (48 + e)] := by
  rw [byteKey_lt_iff]
  refine Or.inr ⟨rfl, List.cons_lt_cons_iff.mpr (Or.inl ?_)⟩
  rw [toNat_digit he, toNat_digit (h.trans he)]
  omega

lemma byteKey_decimal_strictMono : StrictMono fun n => byteKey (decimal n) := by
  intro n m h
  induction m using Nat.strong_induction_on generalizing n with
  | _ m ih =>
    rcases Nat.lt_or_ge m 10 with hm | hm
    · simp only [decimal_of_lt hm, decimal_of_lt (h.trans hm)]
      exact byteKey_digit_lt hm h
    · rcases Nat.lt_or_ge n 10 with hn | hn
      · -- one digit against at least two
        simp only [decimal_of_lt hn, decimal_of_le hm]
        have hpos : 0 < (decimal (m / 10)).length := List.length_pos_iff.mpr (decimal_ne_nil _)
        exact byteKey_lt_iff.mpr (Or.inl (by simpa using hpos))
      · simp only [decimal_of_le hm, decimal_of_le hn]
        rcases (Nat.div_le_div_right h.le : n / 10 ≤ m / 10).lt_or_eq with hlt | heq
        · exact byteKey_append_lt (ih (m / 10) (by omega) hlt) rfl
        · rw [heq]
          exact byteKey_append_left (byteKey_digit_lt (Nat.mod_lt m (by decide)) (by omega))

/-- Names of numbered files are ordered as their numbers. -/
lemma key_pngName_strictMono : StrictMono fun n => (pngName n).key := fun _ _ h =>
  byteKey_append_lt (byteKey_decimal_strictMono h) rfl

end CString

namespace alg

variable {lower upper : List CString} {p x : CString}

/-! ### The partition -/

lemma partitionStep_eq {array : List CString} {base length i : ℕ} (pivot : ℕ)
    (hx : array[base + i]? = some x) (hp : array[base + (length - 1)]? = some p) :
    partitionStep base length (array, pivot) i
      = if x.key < p.key then (swap array (base + i) (base + pivot)).map (·, pivot + 1)
        else some (array, pivot) := by
  simp only [partitionStep, hx, hp, Option.bind_eq_bind, Option.bind_some,
    CString.key_lt_key_iff]
  split_ifs
  · rw [Option.map_eq_bind]
    rfl
  · rfl

/-- The state of the loop after its turns at `taken`, of the cells in front of the pivot `p`. -/
structure Partitioned (p : CString) (taken lower upper : List CString) : Prop where
  perm : (lower ++ upper).Perm taken
  lower_lt : ∀ x ∈ lower, x.key < p.key
  le_upper : ∀ y ∈ upper, p.key ≤ y.key

namespace Partitioned

variable {taken : List CString}

lemma nil (p : CString) : Partitioned p [] [] [] :=
  ⟨List.Perm.refl _, by simp, by simp⟩

lemma length_add (h : Partitioned p taken lower upper) :
    lower.length + upper.length = taken.length := by
  rw [← List.length_append, h.perm.length_eq]

lemma snoc_lower (h : Partitioned p taken lower upper) (hx : x.key < p.key) :
    Partitioned p (taken ++ [x]) (lower ++ [x]) (upper.rotate 1) where
  perm := by
    have hrot : (lower ++ [x] ++ upper.rotate 1).Perm (lower ++ ([x] ++ upper)) := by
      rw [List.append_assoc]
      exact ((List.rotate_perm upper 1).append_left [x]).append_left lower
    refine hrot.trans ?_
    refine (List.perm_append_comm.append_left lower).trans ?_
    rw [← List.append_assoc]
    exact h.perm.append_right [x]
  lower_lt y hy := by
    rcases List.mem_append.mp hy with hy | hy
    · exact h.lower_lt y hy
    · rwa [List.mem_singleton.mp hy]
  le_upper y hy := h.le_upper y (List.mem_rotate.mp hy)

lemma snoc_upper (h : Partitioned p taken lower upper) (hx : p.key ≤ x.key) :
    Partitioned p (taken ++ [x]) lower (upper ++ [x]) where
  perm := by
    rw [← List.append_assoc]
    exact h.perm.append_right [x]
  lower_lt := h.lower_lt
  le_upper y hy := by
    rcases List.mem_append.mp hy with hy | hy
    · exact h.le_upper y hy
    · rwa [List.mem_singleton.mp hy]

end Partitioned

lemma getElem?_pivot (pre taken rest post : List CString) (p : CString) :
    (pre ++ (taken ++ (rest ++ p :: post)))[pre.length + (taken.length + rest.length)]?
      = some p := by
  rw [← List.append_assoc taken, ← List.length_append]
  exact getElem?_at_append _ _ _ _

/-- One turn puts its cell behind the cells less than the pivot, or behind the others. -/
lemma partitionStep_spec (pre rest post : List CString) (x : CString) {taken : List CString}
    (h : Partitioned p taken lower upper) :
    ∃ lower' upper', partitionStep pre.length (taken.length + rest.length + 2)
        (pre ++ (lower ++ (upper ++ x :: (rest ++ p :: post))), lower.length) taken.length
          = some (pre ++ (lower' ++ (upper' ++ (rest ++ p :: post))), lower'.length) ∧
      Partitioned p (taken ++ [x]) lower' upper' := by
  have hx : (pre ++ (lower ++ (upper ++ x :: (rest ++ p :: post))))[pre.length + taken.length]?
      = some x := by
    rw [← h.length_add, ← List.append_assoc lower, ← List.length_append]
    exact getElem?_at_append _ _ _ _
  have hp : (pre ++ (lower ++ (upper ++ x :: (rest ++ p :: post))))[
      pre.length + (taken.length + rest.length + 2 - 1)]? = some p := by
    have hpivot := getElem?_pivot pre (lower ++ upper) (x :: rest) post p
    rw [List.length_append, h.length_add, List.length_cons, List.append_assoc] at hpivot
    exact hpivot
  rw [partitionStep_eq lower.length hx hp]
  split_ifs with hlt
  · refine ⟨lower ++ [x], upper.rotate 1, ?_, h.snoc_lower hlt⟩
    have hex := exchange_rotate (pre ++ lower) upper (rest ++ p :: post) x
    rw [List.length_append, Nat.add_assoc, h.length_add, exchange_comm] at hex
    rw [swap, ← List.append_assoc pre, hex]
    simp
  · exact ⟨lower, upper ++ [x], by simp, h.snoc_upper (le_of_not_gt hlt)⟩

/-- The partition loop; its last turn compares the pivot with itself. -/
lemma partition_spec (pre init post : List CString) (p : CString) :
    ∃ lower upper,
      (List.range (init.length + 1)).foldlM (partitionStep pre.length (init.length + 1))
          (pre ++ (init ++ p :: post), 0)
        = some (pre ++ (lower ++ (upper ++ p :: post)), lower.length) ∧
      Partitioned p init lower upper := by
  obtain ⟨s, hs, lower, upper, rfl, hpart⟩ := Loops.exists_foldlM_range (n := init.length)
    (f := partitionStep pre.length (init.length + 1)) (s := (pre ++ (init ++ p :: post), 0))
    (fun i s => ∃ lower upper,
      s = (pre ++ (lower ++ (upper ++ (init.drop i ++ p :: post))), lower.length) ∧
        Partitioned p (init.take i) lower upper)
    ⟨[], [], by simp, by simpa using Partitioned.nil p⟩
    (by
      rintro i hi _ ⟨lower, upper, rfl, hpart⟩
      have hlen : (init.take i).length = i := List.length_take_of_le hi.le
      have hrest : (init.take i).length + (init.drop (i + 1)).length + 2 = init.length + 1 := by
        rw [hlen, List.length_drop]
        omega
      obtain ⟨lower', upper', hstep, hpart'⟩ :=
        partitionStep_spec pre (init.drop (i + 1)) post init[i] hpart
      rw [hrest, hlen] at hstep
      rw [List.drop_eq_getElem_cons hi, List.cons_append, hstep]
      refine ⟨_, rfl, lower', upper', rfl, ?_⟩
      rwa [List.take_succ_eq_append_getElem hi])
  rw [List.take_length] at hpart
  rw [List.drop_length, List.nil_append] at hs
  refine ⟨lower, upper, ?_, hpart⟩
  have hp : (pre ++ (lower ++ (upper ++ p :: post)))[pre.length + init.length]? = some p := by
    rw [← hpart.length_add]
    exact getElem?_pivot pre lower upper post p
  rw [List.range_succ, List.foldlM_append, hs]
  simp only [Option.bind_eq_bind, Option.bind_some, List.foldlM_cons, List.foldlM_nil]
  rw [partitionStep_eq lower.length hp hp, if_neg (lt_irrefl _)]
  rfl

/-! ### The sort -/

/-- The order of the sorted array. -/
def InOrder (a b : CString) : Prop := a.key ≤ b.key

instance : IsTrans CString InOrder := ⟨fun _ _ _ => le_trans⟩

/-- Sorted sides of a partition make a sorted segment. -/
lemma Partitioned.pairwise_inOrder {init : List CString} (h : Partitioned p init lower upper)
    {lower' upper' : List CString} (hl : lower'.Pairwise InOrder) (hu : upper'.Pairwise InOrder)
    (hlp : lower'.Perm lower) (hup : upper'.Perm upper) :
    (lower' ++ p :: upper').Pairwise InOrder :=
  pairwise_pivot hl hu (fun x hx => (h.lower_lt x (hlp.mem_iff.mp hx)).le)
    fun y hy => h.le_upper y (hup.mem_iff.mp hy)

/-- A call sorts its segment of the array and leaves the rest as it is. -/
lemma quicksort_segment (fuel : ℕ) (pre seg post : List CString) (hfuel : seg.length ≤ fuel) :
    ∃ sorted, quicksort fuel (pre ++ (seg ++ post)) pre.length seg.length
        = some (pre ++ (sorted ++ post)) ∧
      sorted.Perm seg ∧ sorted.Pairwise InOrder := by
  induction fuel generalizing pre seg post with
  | zero =>
    obtain rfl : seg = [] := List.eq_nil_of_length_eq_zero (Nat.le_zero.mp hfuel)
    exact ⟨[], by simp [quicksort], List.Perm.refl _, List.Pairwise.nil⟩
  | succ fuel ih =>
    rcases List.eq_nil_or_concat' seg with rfl | ⟨init, p, rfl⟩
    · exact ⟨[], by simp [quicksort], List.Perm.refl _, List.Pairwise.nil⟩
    rw [List.length_append, List.length_singleton] at hfuel ⊢
    rw [quicksort, Nat.add_sub_cancel, List.append_assoc, List.singleton_append]
    split_ifs with hshort
    · obtain rfl : init = [] := List.eq_nil_of_length_eq_zero (by omega)
      exact ⟨[p], rfl, List.Perm.refl _, List.pairwise_singleton _ _⟩
    obtain ⟨lower, upper, hloop, hpart⟩ := partition_spec pre init post p
    have hlen := hpart.length_add
    -- the pivot moves between the two sides
    have hswap : swap (pre ++ (lower ++ (upper ++ p :: post))) (pre.length + lower.length)
        (pre.length + init.length)
        = some (pre ++ (lower ++ (p :: (upper.rotate 1 ++ post)))) := by
      have hex := exchange_rotate (pre ++ lower) upper post p
      rw [List.length_append, Nat.add_assoc, hlen, List.append_assoc, List.append_assoc] at hex
      exact hex
    obtain ⟨lower', hlower, hlp, hls⟩ :=
      ih pre lower (p :: (upper.rotate 1 ++ post)) (by omega)
    obtain ⟨upper', hupper, hup, hus⟩ :=
      ih (pre ++ (lower' ++ [p])) (upper.rotate 1) post (by rw [List.length_rotate]; omega)
    have hpre : (pre ++ (lower' ++ [p])).length = pre.length + (lower.length + 1) := by
      rw [List.length_append, List.length_append, List.length_singleton, hlp.length_eq]
    have hrest : (upper.rotate 1).length = init.length + 1 - (lower.length + 1) := by
      rw [List.length_rotate]
      omega
    rw [hpre, hrest] at hupper
    have hup' : upper'.Perm upper := hup.trans (List.rotate_perm upper 1)
    refine ⟨lower' ++ p :: upper', ?_, ?_, hpart.pairwise_inOrder hls hus hlp hup'⟩
    · simp only [hloop, hswap, hlower, Option.bind_eq_bind, Option.bind_some]
      simpa using hupper
    · have hmid : (lower' ++ p :: upper').Perm (p :: (lower ++ upper)) :=
        List.perm_middle.trans ((hlp.append hup').cons p)
      exact hmid.trans ((hpart.perm.cons p).trans (List.perm_append_singleton p init).symm)

/-- A sorted array is determined by its entries. -/
lemma eq_of_perm_of_inOrder {as bs : List CString} (ha : as.Pairwise InOrder)
    (hb : bs.Pairwise InOrder) (h : as.Perm bs) : as = bs :=
  List.Perm.eq_of_pairwise (fun _ _ _ _ h h' => CString.key_injective (le_antisymm h h')) ha hb h

/-- The numbers of sorted file names are in increasing order. -/
lemma exists_numbers_of_perm {names : List CString} {numbers : List ℕ}
    (hnames : names.Pairwise InOrder) (hperm : names.Perm (numbers.map CString.pngName)) :
    ∃ ordered : List ℕ, names = ordered.map CString.pngName ∧ ordered.Perm numbers ∧
      ordered.Pairwise (· ≤ ·) := by
  have hord := List.pairwise_insertionSort (· ≤ ·) numbers
  have hsame := List.perm_insertionSort (· ≤ ·) numbers
  refine ⟨numbers.insertionSort (· ≤ ·), ?_, hsame, hord⟩
  refine eq_of_perm_of_inOrder hnames ?_ (hperm.trans (hsame.map CString.pngName).symm)
  exact List.pairwise_map.mpr (hord.imp fun h => CString.key_pngName_strictMono.monotone h)

/-- Every array of strings is sorted within its bounds by at most as many nested calls as it has
entries, and numbered file names come out in the order of their numbers. -/
theorem quicksort_sorts (strings : List CString) :
    ∃ sorted : List CString,
      (∀ fuel, strings.length ≤ fuel → quicksort fuel strings 0 strings.length = some sorted) ∧
      sorted.Perm strings ∧
      sorted.Pairwise (fun a b => a.strlen < b.strlen ∨
        (a.strlen = b.strlen ∧ CString.strcmp a b ≤ 0)) ∧
      ∀ numbers : List ℕ, strings = numbers.map CString.pngName →
        ∃ ordered : List ℕ, sorted = ordered.map CString.pngName ∧ ordered.Perm numbers ∧
          ordered.Pairwise (· ≤ ·) := by
  have hrun : ∀ fuel, strings.length ≤ fuel → ∃ sorted,
      quicksort fuel strings 0 strings.length = some sorted ∧ sorted.Perm strings ∧
        sorted.Pairwise InOrder := fun fuel hfuel => by
    simpa using quicksort_segment fuel [] strings [] hfuel
  obtain ⟨sorted, -, hperm, hsorted⟩ := hrun strings.length le_rfl
  refine ⟨sorted, fun fuel hfuel => ?_, hperm, ?_, fun numbers hnumbers => ?_⟩
  · obtain ⟨sorted', hresult, hperm', hsorted'⟩ := hrun fuel hfuel
    rw [hresult, eq_of_perm_of_inOrder hsorted' hsorted (hperm'.trans hperm.symm)]
  · exact hsorted.imp fun h => (CString.key_le_key_iff _ _).mp h
  · exact exists_numbers_of_perm hsorted (hnumbers ▸ hperm)

example : quicksort 3 ([10, 9, 2].map CString.pngName) 0 3
    = some ([2, 9, 10].map CString.pngName) := by decide

end alg

end VioFrontend
