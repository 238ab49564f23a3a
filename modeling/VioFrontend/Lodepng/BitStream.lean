import Mathlib.Data.UInt
import VioFrontend.Library.BlockMemory
import VioFrontend.Library.Moves

/-!
# Bit streams

The pixels of a PNG image can be smaller than a byte. The bits of a byte are counted from the most
significant one on, and a bit pointer counts the bits of a buffer. `removePaddingBits` moves the
bits of lines that start at a byte together; this works in place, as no bit moves back.
-/

namespace VioFrontend

open Checked Moves

namespace lodepng

variable {β : Type}

/-! ### The code -/

section

variable [DecidableEq β]

/-- The bit, and the next bit pointer. -/
def readBitFromReversedStream (bitpointer : ℕ) (bitstream : Pointer β) (m : Memory β UInt8) :
    Option (UInt8 × ℕ) := do
  let byte ← m.read bitstream (bitpointer >>> 3 : ℕ)
  return ((byte >>> UInt8.ofNat (7 - (bitpointer &&& 7))) &&& 1, bitpointer + 1)

def setBitOfReversedStream (bitpointer : ℕ) (bitstream : Pointer β) (bit : UInt8)
    (m : Memory β UInt8) : Option (Memory β UInt8 × ℕ) := do
  let byte ← m.read bitstream (bitpointer >>> 3 : ℕ)
  let mask := (1 : UInt8) <<< UInt8.ofNat (7 - (bitpointer &&& 7))
  let m ← m.write bitstream (bitpointer >>> 3 : ℕ)
    (if bit = 0 then byte &&& ~~~mask else byte ||| mask)
  return (m, bitpointer + 1)

/-- The innermost loop of the functions that move bits: `n` bits from the bit pointer of `input`
on are copied to the one of `out`. -/
def copyBits (out input : Pointer β) (n : ℕ) (s : Memory β UInt8 × ℕ × ℕ) :
    Option (Memory β UInt8 × ℕ × ℕ) :=
  (List.range n).foldlM (fun (m, ibp, obp) _ => do
    let (bit, ibp) ← readBitFromReversedStream ibp input m
    let (m, obp) ← setBitOfReversedStream obp out bit m
    return (m, ibp, obp)) s

def removePaddingBits (out input : Pointer β) (olinebits ilinebits h : ℕ) (m : Memory β UInt8) :
    Option (Memory β UInt8) := do
  let diff := ilinebits - olinebits
  let (m, _, _) ← (List.range h).foldlM (fun s _ => do
    let (m, ibp, obp) ← copyBits out input olinebits s
    return (m, ibp + diff, obp)) (m, 0, 0)
  return m

end

/-! ### The bits of a byte -/

/-- Bit `i`, from the most significant one on. -/
def bitOf (byte : UInt8) (i : ℕ) : Bool := byte.toBitVec.getMsbD i

/-- The byte with one bit set or cleared. -/
def setBitOf (byte : UInt8) (i : ℕ) (v : Bool) : UInt8 :=
  if v then byte ||| (1 : UInt8) <<< UInt8.ofNat (7 - i)
  else byte &&& ~~~((1 : UInt8) <<< UInt8.ofNat (7 - i))

lemma bitOf_mask {i j : ℕ} (hi : i < 8) (hj : j < 8) :
    bitOf ((1 : UInt8) <<< UInt8.ofNat (7 - i)) j = decide (j = i) := by
  interval_cases i <;> interval_cases j <;> rfl

lemma bitOf_setBitOf {byte : UInt8} {i j : ℕ} (hi : i < 8) (hj : j < 8) (v : Bool) :
    bitOf (setBitOf byte i v) j = if j = i then v else bitOf byte j := by
  have hmask := bitOf_mask hi hj
  rw [setBitOf]
  rcases v with _ | _
  · simp only [bitOf, Bool.false_eq_true, if_false, UInt8.toBitVec_and, UInt8.toBitVec_not,
      BitVec.getMsbD_and, BitVec.getMsbD_not] at *
    rw [hmask]
    by_cases hji : j = i <;> simp [hji, hi, hj]
  · simp only [bitOf, if_true, UInt8.toBitVec_or, BitVec.getMsbD_or] at *
    rw [hmask]
    by_cases hji : j = i <;> simp [hji]

lemma eq_of_bitOf {a b : UInt8} (h : ∀ i < 8, bitOf a i = bitOf b i) : a = b := by
  apply UInt8.toBitVec_inj.mp
  exact BitVec.eq_of_getMsbD_eq h

/-- What is read of a byte is not 0 for a set bit. -/
lemma shiftRight_and_one {byte : UInt8} {i : ℕ} (hi : i < 8) :
    (byte >>> UInt8.ofNat (7 - i)) &&& 1 = if bitOf byte i then 1 else 0 := by
  have hshift : (UInt8.ofNat (7 - i)).toBitVec % 8 = BitVec.ofNat 8 (7 - i) := by
    interval_cases i <;> rfl
  have hbit : (byte.toBitVec >>> BitVec.ofNat 8 (7 - i)).getLsbD 0 = bitOf byte i := by
    interval_cases i <;> simp [bitOf, BitVec.getMsbD]
  apply UInt8.toBitVec_inj.mp
  rw [UInt8.toBitVec_and, UInt8.toBitVec_shiftRight, hshift, UInt8.toBitVec_one,
    BitVec.and_one_eq_setWidth_ofBool_getLsbD, hbit]
  cases bitOf byte i <;> rfl

/-! ### Memory as a store of bytes and of bits -/

lemma inBounds_of_read {b : Buffer UInt8} {i : ℤ} {v : UInt8} (h : b.read i = some v) :
    b.InBounds i := by
  by_contra hnot
  rw [Buffer.read, if_neg hnot] at h
  cases h

/-- All blocks are as large as before. -/
def SameSizes (m m' : Memory β UInt8) : Prop := ∀ b, (m'.array b).size = (m.array b).size

/-- The address of a bit, by the bit pointer for a buffer. -/
def bitAddress (p : Pointer β) (bp : ℕ) : β × ℤ := (p.block, 8 * p.offset + bp)

/-- The address of a byte of a buffer. -/
def byteAddress (p : Pointer β) (k : ℕ) : β × ℤ := (p.block, p.offset + k)

section

variable [DecidableEq β]

def bytes : Store (Memory β UInt8) (β × ℤ) UInt8 where
  get m k := (m.array k.1).read k.2
  set m k v := m.write ⟨k.1, 0⟩ k.2 v

def bits : Store (Memory β UInt8) (β × ℤ) Bool where
  get m k := ((m.array k.1).read (k.2 / 8)).map fun byte => bitOf byte (k.2 % 8).toNat
  set m k v := ((m.array k.1).read (k.2 / 8)).bind fun byte =>
    m.write ⟨k.1, 0⟩ (k.2 / 8) (setBitOf byte (k.2 % 8).toNat v)

lemma bytes_exists_set {m : Memory β UInt8} {b : β} {i : ℤ}
    (h : ((m.array b).read i).isSome = true) (v : UInt8) :
    ∃ m', m.write ⟨b, 0⟩ i v = some m' ∧ (m'.array b).read i = some v ∧
      (∀ b' i', b' ≠ b ∨ i' ≠ i → (m'.array b').read i' = (m.array b').read i') ∧
      SameSizes m m' := by
  obtain ⟨w, hw⟩ := Option.isSome_iff_exists.mp h
  obtain ⟨hlow, hhigh⟩ := inBounds_of_read hw
  have hrange : m.InRange ⟨b, 0⟩ ((m.array b).size : ℤ) := ⟨le_rfl, by rw [zero_add]⟩
  obtain ⟨m', hwrite, hread, hframe⟩ := Memory.exists_write hrange hlow hhigh v
  rw [Memory.read, zero_add] at hread
  refine ⟨m', hwrite, hread, fun b' i' hne => hframe.read b' i' ?_, hframe.size⟩
  refine hne.imp id fun hne => ?_
  simp only [Pointer.shift]
  omega

lemma bytes_move_eq (out input : Pointer β) (k l : ℕ) (m : Memory β UInt8) :
    bytes.move (byteAddress input k) (byteAddress out l) m
      = (m.read input k).bind fun v => m.write out l v := by
  simp only [Store.move, bytes, byteAddress, Memory.read, Memory.write, zero_add]

lemma bytes_lawful : (bytes : Store (Memory β UInt8) _ _).Lawful SameSizes where
  refl _ _ := rfl
  trans _ _ _ h h' b := (h' b).trans (h b)
  exists_set m k v h := by
    obtain ⟨m', hwrite, hread, hother, hsizes⟩ := bytes_exists_set h v
    refine ⟨m', hwrite, hread, fun j hj => hother j.1 j.2 ?_, hsizes⟩
    by_contra hnot
    push Not at hnot
    exact hj (Prod.ext hnot.1 hnot.2)

lemma bits_lawful : (bits : Store (Memory β UInt8) _ _).Lawful SameSizes where
  refl _ _ := rfl
  trans _ _ _ h h' b := (h' b).trans (h b)
  exists_set m k v h := by
    obtain ⟨b, i⟩ := k
    rw [bits, Option.isSome_map] at h
    obtain ⟨byte, hbyte⟩ := Option.isSome_iff_exists.mp h
    obtain ⟨m', hwrite, hread, hother, hsizes⟩ :=
      bytes_exists_set h (setBitOf byte (i % 8).toNat v)
    have hi : (i % 8).toNat < 8 := by omega
    refine ⟨m', ?_, ?_, fun j hj => ?_, hsizes⟩
    · simp only [bits, hbyte, Option.bind_some]
      exact hwrite
    · simp only [bits, hread, Option.map_some, bitOf_setBitOf hi hi, if_true]
    · obtain ⟨b', j⟩ := j
      simp only [bits]
      by_cases hsame : b' = b ∧ j / 8 = i / 8
      · obtain ⟨rfl, hdiv⟩ := hsame
        have hmod : (j % 8).toNat ≠ (i % 8).toNat := by
          intro hmod
          exact hj (Prod.ext rfl (by show j = i; omega))
        rw [hdiv, hread, hbyte, Option.map_some, Option.map_some,
          bitOf_setBitOf hi (by omega), if_neg hmod]
      · rw [hother b' (j / 8) (by tauto)]

lemma bits_get {m : Memory β UInt8} (b : β) (i : ℤ) {j : ℕ} (hj : j < 8) :
    bits.get m (b, 8 * i + j) = ((m.array b).read i).map fun byte => bitOf byte j := by
  have hdiv : (8 * i + j) / 8 = i := by omega
  have hmod : ((8 * i + j) % 8).toNat = j := by omega
  simp only [bits, hdiv, hmod]

lemma bits_get_bitAddress (m : Memory β UInt8) (p : Pointer β) (bp : ℕ) :
    bits.get m (bitAddress p bp)
      = (m.read p (bp / 8 : ℕ)).map fun byte => bitOf byte (bp % 8) := by
  have haddress : bitAddress p bp = (p.block, 8 * (p.offset + (bp / 8 : ℕ)) + (bp % 8 : ℕ)) := by
    rw [bitAddress, Prod.mk.injEq]
    exact ⟨rfl, by omega⟩
  rw [haddress, bits_get _ _ (Nat.mod_lt _ (by decide))]
  rfl

lemma bits_get_of_byte (m : Memory β UInt8) (p : Pointer β) {k j : ℕ} (hj : j < 8) :
    bits.get m (bitAddress p (8 * k + j))
      = (bytes.get m (byteAddress p k)).map fun byte => bitOf byte j := by
  rw [bits_get_bitAddress, Nat.mul_add_div (by decide), Nat.div_eq_of_lt hj, Nat.add_zero,
    Nat.mul_add_mod, Nat.mod_eq_of_lt hj]
  rfl

lemma bits_get_shift (m : Memory β UInt8) (p : Pointer β) (k bp : ℕ) :
    bits.get m (bitAddress (p.shift k) bp) = bits.get m (bitAddress p (8 * k + bp)) := by
  have haddress : 8 * (p.offset + (k : ℤ)) + (bp : ℤ) = 8 * p.offset + ((8 * k + bp : ℕ) : ℤ) := by
    push_cast
    ring
  simp only [bitAddress, Pointer.shift, haddress]

lemma bits_isSome_iff (m : Memory β UInt8) (p : Pointer β) (bp : ℕ) :
    (bits.get m (bitAddress p bp)).isSome = true ↔ (m.read p (bp / 8 : ℕ)).isSome = true := by
  rw [bits_get_bitAddress, Option.isSome_map]

/-- A byte is unchanged when its bits are. -/
lemma read_eq_of_bits {m m' : Memory β UInt8} {b : β} {i : ℤ}
    (h : ∀ j : ℕ, j < 8 → bits.get m' (b, 8 * i + j) = bits.get m (b, 8 * i + j)) :
    (m'.array b).read i = (m.array b).read i := by
  have hbits : ∀ j < 8, ((m'.array b).read i).map (fun byte => bitOf byte j)
      = ((m.array b).read i).map fun byte => bitOf byte j := by
    intro j hj
    rw [← bits_get b i hj, ← bits_get b i hj, h j hj]
  rcases hold : (m.array b).read i with _ | byte
  · simpa [hold] using hbits 0 (by decide)
  · rcases hnew : (m'.array b).read i with _ | byte'
    · simpa [hold, hnew] using hbits 0 (by decide)
    · have hbyte : byte' = byte := eq_of_bitOf fun j hj => by
        simpa [hold, hnew] using hbits j hj
      rw [hbyte]

lemma readBitFromReversedStream_eq (bp : ℕ) (p : Pointer β) (m : Memory β UInt8) :
    readBitFromReversedStream bp p m
      = (bits.get m (bitAddress p bp)).map fun v => (if v then 1 else 0, bp + 1) := by
  have hshift : bp >>> 3 = bp / 8 := Nat.shiftRight_eq_div_pow bp 3
  have hand : bp &&& 7 = bp % 8 := Nat.and_two_pow_sub_one_eq_mod bp 3
  rw [readBitFromReversedStream, bits_get_bitAddress, hshift, hand]
  rcases m.read p (bp / 8 : ℕ) with _ | byte
  · rfl
  · simp only [Option.bind_eq_bind, Option.bind_some, Option.map_some,
      shiftRight_and_one (Nat.mod_lt bp (by decide : 8 > 0))]
    rfl

lemma setBitOfReversedStream_eq (bp : ℕ) (p : Pointer β) (v : Bool) (m : Memory β UInt8) :
    setBitOfReversedStream bp p (if v then 1 else 0) m
      = (bits.set m (bitAddress p bp) v).map fun m => (m, bp + 1) := by
  have hshift : bp >>> 3 = bp / 8 := Nat.shiftRight_eq_div_pow bp 3
  have hand : bp &&& 7 = bp % 8 := Nat.and_two_pow_sub_one_eq_mod bp 3
  have hdiv : (8 * p.offset + (bp : ℤ)) / 8 = p.offset + (bp / 8 : ℕ) := by omega
  have hmod : ((8 * p.offset + (bp : ℤ)) % 8).toNat = bp % 8 := by omega
  simp only [setBitOfReversedStream, hshift, hand, bits, bitAddress, hdiv, hmod, Memory.read,
    Memory.write, zero_add]
  rcases (m.array p.block).read (p.offset + (bp / 8 : ℕ)) with _ | byte
  · rfl
  · have hvalue : (if (if v then (1 : UInt8) else 0) = 0
        then byte &&& ~~~((1 : UInt8) <<< UInt8.ofNat (7 - bp % 8))
        else byte ||| (1 : UInt8) <<< UInt8.ofNat (7 - bp % 8)) = setBitOf byte (bp % 8) v := by
      cases v <;> simp [setBitOf]
    simp only [Option.bind_eq_bind, Option.bind_some, hvalue]
    exact Option.map_eq_bind.symm

/-- One turn of the loop that copies bits. -/
lemma copyBit_eq (out input : Pointer β) (ibp obp : ℕ) (m : Memory β UInt8) :
    (do
      let (bit, ibp) ← readBitFromReversedStream ibp input m
      let (m, obp) ← setBitOfReversedStream obp out bit m
      return (m, ibp, obp))
    = (bits.move (bitAddress input ibp) (bitAddress out obp) m).map
        fun m => (m, ibp + 1, obp + 1) := by
  rw [readBitFromReversedStream_eq, Store.move]
  rcases bits.get m (bitAddress input ibp) with _ | v
  · rfl
  · simp only [Option.map_some, Option.bind_eq_bind, Option.bind_some, setBitOfReversedStream_eq]
    rcases bits.set m (bitAddress out obp) v with _ | m'
    · rfl
    · rfl

/-- Copying bits is moving them. -/
lemma copyBits_eq (out input : Pointer β) (n ibp obp : ℕ) (m : Memory β UInt8) :
    copyBits out input n (m, ibp, obp)
      = (bits.moves (fun j => bitAddress input (ibp + j)) (fun j => bitAddress out (obp + j))
          (List.range n) m).map fun m => (m, ibp + n, obp + n) := by
  induction n with
  | zero => rfl
  | succ n ih =>
    rw [copyBits, List.range_succ, List.foldlM_append, ← copyBits, ih, moves_append]
    rcases bits.moves (fun j => bitAddress input (ibp + j)) (fun j => bitAddress out (obp + j))
      (List.range n) m with _ | m'
    · rfl
    · have hturn := copyBit_eq out input (ibp + n) (obp + n) m'
      simp only [Option.bind_eq_bind, Option.pure_def] at hturn
      simp only [Option.map_some, Option.bind_eq_bind, Option.bind_some, List.foldlM_cons,
        List.foldlM_nil, Store.moves, Option.pure_def, Option.bind_fun_some, hturn]
      rfl

end

/-! ### Removing the padding -/

/-- The positions of `h` lines of `w`, one line after another. -/
def positions (h w : ℕ) : List (ℕ × ℕ) :=
  (List.range h).flatMap fun y => (List.range w).map fun x => (y, x)

lemma mem_positions {h w : ℕ} {p : ℕ × ℕ} : p ∈ positions h w ↔ p.1 < h ∧ p.2 < w := by
  obtain ⟨y, x⟩ := p
  simp [positions]

lemma positions_succ (h w : ℕ) :
    positions (h + 1) w = positions h w ++ (List.range w).map fun x => (h, x) := by
  simp [positions, List.range_succ]

lemma positions_pairwise (h w : ℕ) :
    (positions h w).Pairwise fun p q => p.1 * w + p.2 < q.1 * w + q.2 := by
  rw [positions, List.pairwise_flatMap]
  constructor
  · intro y _
    rw [List.pairwise_map]
    exact List.pairwise_lt_range.imp fun hlt => Nat.add_lt_add_left hlt _
  · refine List.pairwise_lt_range.imp fun {y y'} hlt => ?_
    intro p hp q hq
    obtain ⟨x, hx, rfl⟩ := List.mem_map.mp hp
    obtain ⟨x', -, rfl⟩ := List.mem_map.mp hq
    have hx := List.mem_range.mp hx
    calc y * w + x < y * w + w := Nat.add_lt_add_left hx _
      _ = (y + 1) * w := (Nat.succ_mul y w).symm
      _ ≤ y' * w := Nat.mul_le_mul_right w hlt
      _ ≤ y' * w + x' := Nat.le_add_right _ _

section

variable [DecidableEq β] {out input : Pointer β} {olinebits ilinebits h : ℕ} {m : Memory β UInt8}

lemma removePaddingBits_eq (hle : olinebits ≤ ilinebits) :
    removePaddingBits out input olinebits ilinebits h m
      = bits.moves (fun p => bitAddress input (p.1 * ilinebits + p.2))
          (fun p => bitAddress out (p.1 * olinebits + p.2)) (positions h olinebits) m := by
  have hlines : ∀ n, (List.range n).foldlM (fun s _ => do
        let (m, ibp, obp) ← copyBits out input olinebits s
        return (m, ibp + (ilinebits - olinebits), obp)) (m, 0, 0)
      = (bits.moves (fun p => bitAddress input (p.1 * ilinebits + p.2))
          (fun p => bitAddress out (p.1 * olinebits + p.2)) (positions n olinebits) m).map
        fun m => (m, n * ilinebits, n * olinebits) := by
    intro n
    induction n with
    | zero =>
      simp only [Nat.zero_mul]
      rfl
    | succ n ih =>
      have hibp : n * ilinebits + olinebits + (ilinebits - olinebits) = (n + 1) * ilinebits := by
        rw [Nat.succ_mul]
        omega
      have hobp : n * olinebits + olinebits = (n + 1) * olinebits := (Nat.succ_mul _ _).symm
      rw [List.range_succ, List.foldlM_append, ih, positions_succ, moves_append]
      generalize bits.moves _ _ (positions n olinebits) m = o
      rcases o with _ | m'
      · rfl
      · simp only [Option.map_some, Option.bind_eq_bind, Option.bind_some, List.foldlM_cons,
          copyBits_eq, moves_map]
        generalize bits.moves _ _ (List.range olinebits) m' = o
        rcases o with _ | m''
        · rfl
        · rw [Option.map_some, Option.map_some, ← hibp, ← hobp]
          rfl
  rw [removePaddingBits, hlines h]
  generalize bits.moves _ _ (positions h olinebits) m = o
  rcases o with _ | m'
  · rfl
  · rfl

/-- Moving bits to the first `n` bytes of a buffer changes nothing else. -/
lemma agreesOutside_of_moved {ι : Type} {source : ι → β × ℤ} {dest : ι → ℕ} {l : List ι} {n : ℕ}
    {m' : Memory β UInt8}
    (h : Moved bits SameSizes source (fun i => bitAddress out (dest i)) l m m')
    (hdest : ∀ i ∈ l, dest i < 8 * n) : m.AgreesOutside out n m' := by
  refine ⟨h.rel, fun b k hk => read_eq_of_bits fun j hj => h.get_of_ne _ fun i hi heq => ?_⟩
  have hblock : out.block = b := congrArg Prod.fst heq
  have haddress : 8 * out.offset + (dest i : ℤ) = 8 * k + j := congrArg Prod.snd heq
  have hlt := hdest i hi
  rcases hk with hne | hlow | hhigh
  · exact hne hblock.symm
  · omega
  · omega

/-- The bits of the lines end up one after another; no other bit changes. -/
lemma removePaddingBits_spec (hle : olinebits ≤ ilinebits)
    (hapart : out.block = input.block → out.offset ≤ input.offset)
    (hsource : ∀ y < h, ∀ x < olinebits,
      (bits.get m (bitAddress input (y * ilinebits + x))).isSome = true)
    (hdest : ∀ y < h, ∀ x < olinebits,
      (bits.get m (bitAddress out (y * olinebits + x))).isSome = true) :
    ∃ m', removePaddingBits out input olinebits ilinebits h m = some m' ∧
      Moved bits SameSizes (fun p => bitAddress input (p.1 * ilinebits + p.2))
        (fun p => bitAddress out (p.1 * olinebits + p.2)) (positions h olinebits) m m' := by
  rw [removePaddingBits_eq hle]
  refine exists_moves bits_lawful ?_ (fun p hp => ?_) (fun p hp => ?_)
  · refine (positions_pairwise h olinebits).imp fun {p q} hlt => ⟨fun heq => ?_, fun heq => ?_⟩
    · have hblock : out.block = input.block := congrArg Prod.fst heq
      have haddress : 8 * out.offset + ((p.1 * olinebits + p.2 : ℕ) : ℤ)
          = 8 * input.offset + ((q.1 * ilinebits + q.2 : ℕ) : ℤ) := congrArg Prod.snd heq
      have hrow := Nat.mul_le_mul_left q.1 hle
      have hoffset := hapart hblock
      omega
    · have haddress : 8 * out.offset + ((p.1 * olinebits + p.2 : ℕ) : ℤ)
          = 8 * out.offset + ((q.1 * olinebits + q.2 : ℕ) : ℤ) := congrArg Prod.snd heq
      omega
  · obtain ⟨hy, hx⟩ := mem_positions.mp hp
    exact hsource p.1 hy p.2 hx
  · obtain ⟨hy, hx⟩ := mem_positions.mp hp
    exact hdest p.1 hy p.2 hx

end

end lodepng

end VioFrontend
