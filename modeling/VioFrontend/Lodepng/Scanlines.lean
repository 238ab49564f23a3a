import VioFrontend.Lodepng.Unfilter
import VioFrontend.Lodepng.Adam7

/-!
# From filtered lines to pixels

`postProcessScanlines` turns the inflated data of a PNG file into the pixels of the image. The data
holds the image itself, or the seven passes of an interlaced one. They are unfiltered and freed of
their padding bits one after another, over the data itself: a pass ends, after each of the two
steps, before the filtered lines of the next one. What is left of the earlier passes stays as it is.
-/

namespace VioFrontend

open Checked Moves

namespace lodepng

variable {β : Type}

/-! ### The code -/

/-- The fields of `LodePNGInfo` that are read. -/
structure Info where
  color : ColorMode
  interlaceMethod : ℕ

section

variable [DecidableEq β]

/-- The loop over the passes, from pass `i` on, `n` of them. -/
def processPasses (input : Pointer β) (w h bpp : ℕ) :
    ℕ → ℕ → Memory β UInt8 → Option (Memory β UInt8 × ℕ)
  | 0, _, m     => some (m, 0)
  | n + 1, i, m => do
    let (m, error) ← unfilter (input.shift (paddedPassstart w h bpp i))
      (input.shift (filterPassstart w h bpp i)) (passw w h i) (passh w h i) bpp m
    if error ≠ 0 then return (m, error)
    else
      let m ←
        if bpp < 8 then
          removePaddingBits (input.shift (passstart w h bpp i))
            (input.shift (paddedPassstart w h bpp i)) (passw w h i * bpp)
            ((passw w h i * bpp + 7) / 8 * 8) (passh w h i) m
        else some m
      processPasses input w h bpp n (i + 1) m

/-- The number is the error. -/
def postProcessScanlines (out input : Pointer β) (w h : ℕ) (info : Info) (m : Memory β UInt8) :
    Option (Memory β UInt8 × ℕ) :=
  let bpp := info.color.getBpp
  if bpp = 0 then some (m, 31)
  else if info.interlaceMethod = 0 then
    if bpp < 8 ∧ w * bpp ≠ (w * bpp + 7) / 8 * 8 then do
      let (m, error) ← unfilter input input w h bpp m
      if error ≠ 0 then return (m, error)
      else
        let m ← removePaddingBits out input (w * bpp) ((w * bpp + 7) / 8 * 8) h m
        return (m, 0)
    else unfilter out input w h bpp m
  else do
    let (m, error) ← processPasses input w h bpp 7 0 m
    if error ≠ 0 then return (m, error)
    else
      let m ← adam7Deinterlace out input w h bpp m
      return (m, 0)

end

/-! ### The lines of an image -/

/-- The bytes of an image of width `w` before they were filtered. -/
def raw (types s : ℕ → UInt8) (w bpp : ℕ) : ℕ → UInt8 :=
  Residuals.decode (expected types (bytewidth bpp) (linebytes w bpp)) s

/-- Bit `b` of the pixel in column `x` of line `y`. -/
def pixelBit (f : ℕ → UInt8) (w bpp x y b : ℕ) : Bool :=
  bitOf (f (linebytes w bpp * y + (x * bpp + b) / 8)) ((x * bpp + b) % 8)

lemma linebytes_eq_div (w bpp : ℕ) : linebytes w bpp = (w * bpp + 7) / 8 := by
  have hw : w * bpp = 8 * (w / 8 * bpp) + w % 8 * bpp := by
    calc w * bpp = (8 * (w / 8) + w % 8) * bpp := by rw [Nat.div_add_mod]
      _ = _ := by ring
  rw [linebytes_eq, hw]
  omega

lemma eight_mul_linebytes {w bpp : ℕ} (h : 8 ∣ w * bpp) : 8 * linebytes w bpp = w * bpp := by
  rw [linebytes_eq_div]
  omega

lemma bit_lt {w bpp x b : ℕ} (hx : x < w) (hb : b < bpp) : x * bpp + b < w * bpp := by
  calc x * bpp + b < x * bpp + bpp := Nat.add_lt_add_left hb _
    _ = (x + 1) * bpp := (Nat.succ_mul x bpp).symm
    _ ≤ w * bpp := Nat.mul_le_mul_right bpp hx

/-- A bit of a line among those of all lines, with and without the padding. -/
lemma line_bit_lt {w h bpp x y : ℕ} (hy : y < h) (hx : x < w * bpp) :
    y * (linebytes w bpp * 8) + x < 8 * (linebytes w bpp * h) ∧
      y * (w * bpp) + x < h * (w * bpp) := by
  have hline := linebytes_eq_div w bpp
  have hrow := mul_add_le (linebytes w bpp) hy
  have hrow' := Nat.mul_le_mul_right (w * bpp) (Nat.succ_le_of_lt hy)
  have hswap : y * (linebytes w bpp * 8) = 8 * (linebytes w bpp * y) := by ring
  rw [Nat.succ_mul] at hrow'
  omega

section

variable [DecidableEq β] {out input : Pointer β} {types s f : ℕ → UInt8} {w h bpp : ℕ}
  {m m' : Memory β UInt8}

/-- Unfiltering ends with the error 36 when a type is invalid. -/
lemma unfilter_result (hbpp : 0 < bpp) (hw : 0 < w ∨ h = 0)
    (hfiltered : Filtered out input types s (linebytes w bpp) h m) :
    ((∀ y < h, (types y).toNat ≤ 4) → ∃ m', unfilter out input w h bpp m = some (m', 0) ∧
      Written out (raw types s w bpp) m (linebytes w bpp * h) m') ∧
    ((¬ ∀ y < h, (types y).toNat ≤ 4) → ∃ m', unfilter out input w h bpp m = some (m', 36)) := by
  rcases hw with hw | rfl
  · constructor
    · intro hvalid
      obtain ⟨m', hrun, hwritten⟩ := unfilter_spec hw hbpp hfiltered le_rfl hvalid (Or.inl rfl)
      rw [if_pos rfl] at hrun
      exact ⟨m', hrun, hwritten⟩
    · intro hinvalid
      -- the first line with an invalid type
      push Not at hinvalid
      obtain ⟨hlt, hfirst⟩ := Nat.find_spec hinvalid
      have hbefore : ∀ y < Nat.find hinvalid, (types y).toNat ≤ 4 := fun y hy =>
        not_lt.mp fun hgt => Nat.find_min hinvalid hy ⟨hy.trans hlt, hgt⟩
      obtain ⟨m', hrun, -⟩ := unfilter_spec hw hbpp hfiltered hlt.le hbefore (Or.inr hfirst)
      rw [if_neg hlt.ne] at hrun
      exact ⟨m', hrun⟩
  · refine ⟨fun _ => ⟨m, rfl, fun n hn => ?_, .refl _ _ _⟩, fun hinvalid => absurd ?_ hinvalid⟩
    · rw [Nat.mul_zero] at hn
      exact absurd hn (Nat.not_lt_zero n)
    · exact fun y hy => absurd hy (Nat.not_lt_zero y)

/-- The bits of the pixels of a written line. -/
lemma Written.bits_get {x y b : ℕ} (hwritten : Written out f m (linebytes w bpp * h) m')
    (hy : y < h) (hx : x < w) (hb : b < bpp) :
    bits.get m' (bitAddress out (8 * (linebytes w bpp * y) + (x * bpp + b)))
      = some (pixelBit f w bpp x y b) := by
  have hbit := bit_lt hx hb
  have hrow := mul_add_le (linebytes w bpp) hy
  have hline := linebytes_eq_div w bpp
  rw [bits_get_bitAddress, Nat.mul_add_div (by decide), Nat.mul_add_mod,
    hwritten.read _ (by omega)]
  rfl

end

/-! ### Where the passes start -/

section

variable {w h bpp i j : ℕ}

/-- A pass without columns has no rows. -/
lemma passw_pos_or (w h i : ℕ) : 0 < passw w h i ∨ passh w h i = 0 := by
  simp only [passw, passh, passSize]
  split_ifs <;> simp_all [Nat.pos_iff_ne_zero]

lemma paddedPassstart_succ (w h bpp i : ℕ) : paddedPassstart w h bpp (i + 1)
    = paddedPassstart w h bpp i + linebytes (passw w h i) bpp * passh w h i := by
  rw [paddedPassstart, linebytes_eq_div, Nat.mul_comm (passh w h i)]

lemma filterPassstart_succ (w h bpp i : ℕ) : filterPassstart w h bpp (i + 1)
    = filterPassstart w h bpp i + (1 + linebytes (passw w h i) bpp) * passh w h i := by
  rw [filterPassstart, linebytes_eq_div, Nat.mul_comm (passh w h i)]
  rcases passw_pos_or w h i with hpos | hzero
  · split_ifs with hsize
    · rfl
    · rw [show passh w h i = 0 by omega, Nat.mul_zero]
  · simp [hzero]

/-- The bits of a pass fit between its start and that of the next pass. -/
lemma passstart_succ (w h bpp i : ℕ) :
    8 * passstart w h bpp i + passh w h i * (passw w h i * bpp)
        ≤ 8 * passstart w h bpp (i + 1) ∧
      passstart w h bpp (i + 1)
        ≤ passstart w h bpp i + linebytes (passw w h i) bpp * passh w h i := by
  have hline : passw w h i * bpp ≤ 8 * linebytes (passw w h i) bpp := by
    rw [linebytes_eq_div]
    omega
  have hbits := Nat.mul_le_mul_left (passh w h i) hline
  have hswap : passh w h i * (8 * linebytes (passw w h i) bpp)
      = 8 * (linebytes (passw w h i) bpp * passh w h i) := by ring
  rw [passstart, Nat.mul_assoc (passh w h i)]
  omega

/-- What a pass becomes is in front of what it was made from. -/
lemma passstart_le (w h bpp i : ℕ) :
    passstart w h bpp i ≤ paddedPassstart w h bpp i ∧
      paddedPassstart w h bpp i ≤ filterPassstart w h bpp i := by
  induction i with
  | zero => exact ⟨le_rfl, le_rfl⟩
  | succ i ih =>
    have hbits := (passstart_succ w h bpp i).2
    rw [paddedPassstart_succ, filterPassstart_succ, one_add_mul_eq]
    omega

lemma passstart_mono (w h bpp : ℕ) : Monotone (passstart w h bpp) :=
  monotone_nat_of_le_succ fun _ => Nat.le_add_right _ _

lemma filterPassstart_mono (w h bpp : ℕ) : Monotone (filterPassstart w h bpp) :=
  monotone_nat_of_le_succ fun _ => Nat.le_add_right _ _

/-- Without padding a pass stays where it is. -/
lemma passstart_eq (hbpp : 8 ∣ bpp) (i : ℕ) :
    passstart w h bpp i = paddedPassstart w h bpp i := by
  induction i with
  | zero => rfl
  | succ i ih =>
    have hline := eight_mul_linebytes (hbpp.mul_left (passw w h i))
    rw [paddedPassstart_succ, passstart, ih, Nat.mul_assoc, ← hline]
    have hswap : passh w h i * (8 * linebytes (passw w h i) bpp)
        = 8 * (linebytes (passw w h i) bpp * passh w h i) := by ring
    omega

end

/-! ### The passes -/

section

variable [DecidableEq β] {input : Pointer β} {w h bpp i : ℕ} {types s : ℕ → ℕ → UInt8}
  {m₀ m m' : Memory β UInt8}

/-- The filtered lines of the passes; each pass is unfiltered to its place without filter types. -/
def PassLines (input : Pointer β) (w h bpp : ℕ) (types s : ℕ → ℕ → UInt8) (m : Memory β UInt8) :
    Prop :=
  ∀ i < 7, Filtered (input.shift (paddedPassstart w h bpp i))
    (input.shift (filterPassstart w h bpp i)) (types i) (s i) (linebytes (passw w h i) bpp)
    (passh w h i) m

/-- The passes before pass `i` are done: their pixels are one after another. The lines of the other
passes are as at first. -/
structure PassesDone (input : Pointer β) (w h bpp : ℕ) (types s : ℕ → ℕ → UInt8)
    (m₀ : Memory β UInt8) (i : ℕ) (m : Memory β UInt8) : Prop where
  frame : m₀.AgreesOutside input (filterPassstart w h bpp i : ℕ) m
  isSome : ∀ k < filterPassstart w h bpp 7, (m.read input k).isSome = true
  pixel : ∀ j < i, ∀ y < passh w h j, ∀ x < passw w h j, ∀ b < bpp,
    bits.get m (bitAddress input (8 * passstart w h bpp j + ((y * passw w h j + x) * bpp + b)))
      = some (pixelBit (raw (types j) (s j) (passw w h j) bpp) (passw w h j) bpp x y b)

/-- The pixels of a pass lie in front of the next pass. -/
lemma pass_bit_lt {j x y b : ℕ} (hj : j < i) (hy : y < passh w h j) (hx : x < passw w h j)
    (hb : b < bpp) : 8 * passstart w h bpp j + ((y * passw w h j + x) * bpp + b)
      < 8 * passstart w h bpp i := by
  have hbit := bit_lt hx hb
  have hrow := Nat.mul_le_mul_right (passw w h j * bpp) (Nat.succ_le_of_lt hy)
  have hnext := (passstart_succ w h bpp j).1
  have hmono := passstart_mono w h bpp (Nat.succ_le_of_lt hj)
  have hindex : (y * passw w h j + x) * bpp + b = y * (passw w h j * bpp) + (x * bpp + b) := by
    ring
  rw [Nat.succ_mul] at hrow
  simp only [Nat.succ_eq_add_one] at hmono
  omega

omit [DecidableEq β] in
/-- Filtered lines stay as they are when something is written in front of them. -/
lemma Filtered.mono {out input p : Pointer β} {types s : ℕ → UInt8} {length h n : ℕ}
    (hfiltered : Filtered out input types s length h m) (hframe : m.AgreesOutside p n m')
    (hp : p.offset + n ≤ input.offset) : Filtered out input types s length h m' where
  type y hy := by
    rw [hframe.read_eq (Or.inr (Or.inr (by omega))), hfiltered.type y hy]
  byte y hy x hx := by
    rw [hframe.read_eq (Or.inr (Or.inr (by omega))), hfiltered.byte y hy x hx]
  inRange := hframe.inRange hfiltered.inRange
  apart := hfiltered.apart

omit [DecidableEq β] in
/-- All bytes of filtered lines can be read. -/
lemma Filtered.isSome {out input : Pointer β} {types s : ℕ → UInt8} {length h k : ℕ}
    (hfiltered : Filtered out input types s length h m) (hk : k < (1 + length) * h) :
    (m.read input k).isSome = true := by
  have hline := Nat.div_add_mod k (1 + length)
  have hmod : k % (1 + length) < 1 + length := Nat.mod_lt k (by omega)
  have hy : k / (1 + length) < h := Nat.div_lt_of_lt_mul hk
  rcases Nat.eq_zero_or_pos (k % (1 + length)) with hzero | hpos
  · rw [hzero, Nat.add_zero] at hline
    rw [← hline, hfiltered.type _ hy]
    rfl
  · have hbyte : (1 + length) * (k / (1 + length)) + 1 + (k % (1 + length) - 1) = k := by omega
    rw [← hbyte, hfiltered.byte _ hy _ (by omega)]
    rfl

omit [DecidableEq β] in
/-- Before the first pass. -/
lemma PassLines.isSome (hlines : PassLines input w h bpp types s m) :
    ∀ k < filterPassstart w h bpp 7, (m.read input k).isSome = true := by
  have hstart : ∀ n ≤ 7, ∀ k < filterPassstart w h bpp n, (m.read input k).isSome = true := by
    intro n
    induction n with
    | zero => exact fun _ k hk => absurd hk (Nat.not_lt_zero k)
    | succ n ih =>
      intro hn k hk
      by_cases hlt : k < filterPassstart w h bpp n
      · exact ih (by omega) k hlt
      · rw [filterPassstart_succ] at hk
        have hsome := (hlines n (by omega)).isSome
          (show k - filterPassstart w h bpp n < _ by omega)
        rwa [read_shift, Nat.add_sub_cancel' (by omega)] at hsome
  exact hstart 7 le_rfl

section

variable (hdone : PassesDone input w h bpp types s m₀ i m)
  (hwritten : Written (input.shift (paddedPassstart w h bpp i))
    (raw (types i) (s i) (passw w h i) bpp) m (linebytes (passw w h i) bpp * passh w h i) m')

include hdone hwritten

/-- Unfiltering a pass changes nothing from the next pass on. -/
lemma PassesDone.frame_written :
    m₀.AgreesOutside input (filterPassstart w h bpp (i + 1) : ℕ) m' := by
  have hmono := filterPassstart_mono w h bpp (Nat.le_succ i)
  have hle := (passstart_le w h bpp (i + 1)).2
  rw [paddedPassstart_succ] at hle
  refine (hdone.frame.mono rfl le_rfl ?_).trans (hwritten.frame.mono rfl ?_ ?_)
  · simp only [Nat.succ_eq_add_one] at hmono
    omega
  · simp only [Pointer.shift]
    omega
  · simp only [Pointer.shift]
    push_cast at *
    omega

lemma PassesDone.isSome_written :
    ∀ k < filterPassstart w h bpp 7, (m'.read input k).isSome = true := by
  intro k hk
  by_cases hin : paddedPassstart w h bpp i ≤ k ∧
      k < paddedPassstart w h bpp i + linebytes (passw w h i) bpp * passh w h i
  · have hread := hwritten.read (k - paddedPassstart w h bpp i) (by omega)
    rw [read_shift, Nat.add_sub_cancel' hin.1] at hread
    rw [hread]
    rfl
  · rw [hwritten.frame.read_eq]
    · exact hdone.isSome k hk
    · refine Or.inr ?_
      simp only [Pointer.shift]
      omega

/-- The pixels of the earlier passes are in front of the pass. -/
lemma PassesDone.pixel_written {j x y b : ℕ} (hj : j < i) (hy : y < passh w h j)
    (hx : x < passw w h j) (hb : b < bpp) :
    bits.get m' (bitAddress input (8 * passstart w h bpp j + ((y * passw w h j + x) * bpp + b)))
      = some (pixelBit (raw (types j) (s j) (passw w h j) bpp) (passw w h j) bpp x y b) := by
  have hbit := pass_bit_lt hj hy hx hb
  have hle := (passstart_le w h bpp i).1
  rw [← hdone.pixel j hj y hy x hx b hb, bits_get_bitAddress, bits_get_bitAddress,
    hwritten.frame.read_eq]
  refine Or.inr (Or.inl ?_)
  simp only [Pointer.shift]
  omega

omit hdone in
/-- The pixels of the pass itself, still with the padding of their lines. -/
lemma padded_written {x y b : ℕ} (hy : y < passh w h i) (hx : x < passw w h i)
    (hb : b < bpp) :
    bits.get m' (bitAddress input (8 * paddedPassstart w h bpp i
        + (8 * (linebytes (passw w h i) bpp * y) + (x * bpp + b))))
      = some (pixelBit (raw (types i) (s i) (passw w h i) bpp) (passw w h i) bpp x y b) := by
  rw [← bits_get_shift]
  exact hwritten.bits_get hy hx hb

/-- Lines of whole bytes have no padding. -/
lemma PassesDone.of_written (hbpp : 8 ∣ bpp) :
    PassesDone input w h bpp types s m₀ (i + 1) m' where
  frame := hdone.frame_written hwritten
  isSome := hdone.isSome_written hwritten
  pixel j hj y hy x hx b hb := by
    rcases Nat.lt_succ_iff_lt_or_eq.mp hj with hlt | rfl
    · exact hdone.pixel_written hwritten hlt hy hx hb
    · rw [← padded_written hwritten hy hx hb, passstart_eq hbpp,
        ← Nat.mul_assoc 8, eight_mul_linebytes (hbpp.mul_left _)]
      congr 3
      ring

/-- The padding bits of the pass are removed. -/
lemma PassesDone.of_moved (hi : i < 7) :
    ∃ m'', removePaddingBits (input.shift (passstart w h bpp i))
        (input.shift (paddedPassstart w h bpp i)) (passw w h i * bpp)
        ((passw w h i * bpp + 7) / 8 * 8) (passh w h i) m' = some m'' ∧
      PassesDone input w h bpp types s m₀ (i + 1) m'' := by
  have hline := linebytes_eq_div (passw w h i) bpp
  have hstart := passstart_le w h bpp i
  have hnext := passstart_succ w h bpp i
  have hpadded := (passstart_le w h bpp (i + 1)).2
  have hend := filterPassstart_mono w h bpp (show i + 1 ≤ 7 by omega)
  rw [paddedPassstart_succ] at hpadded
  have hread : ∀ {k : ℕ}, k / 8 < filterPassstart w h bpp 7 →
      (bits.get m' (bitAddress input k)).isSome = true := fun hk =>
    (bits_isSome_iff _ _ _).mpr (hdone.isSome_written hwritten _ hk)
  obtain ⟨m'', hremove, hmoved⟩ : ∃ m'', removePaddingBits (input.shift (passstart w h bpp i))
      (input.shift (paddedPassstart w h bpp i)) (passw w h i * bpp)
      (linebytes (passw w h i) bpp * 8) (passh w h i) m' = some m'' ∧ _ := by
    refine removePaddingBits_spec (by omega) (fun _ => ?_) (fun y hy x hx => ?_) fun y hy x hx => ?_
    · simp only [Pointer.shift]
      omega
    · have hbit := line_bit_lt hy hx
      rw [bits_get_shift]
      exact hread (by omega)
    · have hbit := line_bit_lt hy hx
      rw [bits_get_shift]
      exact hread (by omega)
  have hmem : ∀ {y x : ℕ}, (y, x) ∈ positions (passh w h i) (passw w h i * bpp) ↔
      y < passh w h i ∧ x < passw w h i * bpp := mem_positions
  have hframe := agreesOutside_of_moved hmoved
    (n := passstart w h bpp (i + 1) - passstart w h bpp i) fun p hp => by
      have hbit := line_bit_lt (hmem.mp hp).1 (hmem.mp hp).2
      omega
  rw [← hline]
  refine ⟨m'', hremove, ?_, fun k hk => ?_, fun j hj y hy x hx b hb => ?_⟩
  · refine (hdone.frame_written hwritten).trans (hframe.mono rfl ?_ ?_)
    · simp only [Pointer.shift]
      omega
    · simp only [Pointer.shift]
      omega
  · have hbyte : 8 * k / 8 = k := Nat.mul_div_cancel_left k (by decide)
    rw [← hbyte, ← bits_isSome_iff]
    refine hmoved.isSome (fun p hp => ?_) (hread (by omega))
    have hbit := line_bit_lt (hmem.mp hp).1 (hmem.mp hp).2
    rw [bits_get_shift]
    exact hread (by omega)
  · rcases Nat.lt_succ_iff_lt_or_eq.mp hj with hlt | rfl
    · have hlt' := pass_bit_lt hlt hy hx hb
      rw [← hdone.pixel_written hwritten hlt hy hx hb, bits_get_bitAddress, bits_get_bitAddress,
        hframe.read_eq]
      refine Or.inr (Or.inl ?_)
      simp only [Pointer.shift]
      omega
    · have hmove := hmoved.get_dest (y, x * bpp + b) (hmem.mpr ⟨hy, bit_lt hx hb⟩)
      simp only [bits_get_shift] at hmove
      rw [← padded_written hwritten hy hx hb]
      convert hmove using 3
      · ring
      · ring

end

/-- One iteration of the loop over the passes. -/
lemma PassesDone.step (hbpp : 0 < bpp) (hbytes : bpp < 8 ∨ 8 ∣ bpp)
    (hlines : PassLines input w h bpp types s m₀)
    (hdone : PassesDone input w h bpp types s m₀ i m) (hi : i < 7) (n : ℕ) :
    ((∀ y < passh w h i, (types i y).toNat ≤ 4) → ∃ m',
      processPasses input w h bpp (n + 1) i m = processPasses input w h bpp n (i + 1) m' ∧
      PassesDone input w h bpp types s m₀ (i + 1) m') ∧
    ((¬ ∀ y < passh w h i, (types i y).toNat ≤ 4) → ∃ m',
      processPasses input w h bpp (n + 1) i m = some (m', 36)) := by
  have hfiltered := (hlines i hi).mono hdone.frame (by simp only [Pointer.shift]; omega)
  obtain ⟨hvalid, hinvalid⟩ := unfilter_result hbpp (passw_pos_or w h i) hfiltered
  constructor
  · intro htypes
    obtain ⟨m', hrun, hwritten⟩ := hvalid htypes
    rcases hbytes with hlt | hdvd
    · obtain ⟨m'', hremove, hnext⟩ := hdone.of_moved hwritten hi
      refine ⟨m'', ?_, hnext⟩
      rw [processPasses, hrun]
      simp only [Option.bind_eq_bind, Option.bind_some, ne_eq, not_true_eq_false, if_false,
        if_pos hlt, hremove]
    · refine ⟨m', ?_, hdone.of_written hwritten hdvd⟩
      have hle := Nat.le_of_dvd hbpp hdvd
      rw [processPasses, hrun]
      simp only [Option.bind_eq_bind, Option.bind_some, ne_eq, not_true_eq_false, if_false,
        if_neg (not_lt.mpr hle)]
  · intro htypes
    obtain ⟨m', hrun⟩ := hinvalid htypes
    refine ⟨m', ?_⟩
    rw [processPasses, hrun]
    rfl

/-- The loop from pass `i` on. -/
lemma processPasses_spec (hbpp : 0 < bpp) (hbytes : bpp < 8 ∨ 8 ∣ bpp)
    (hlines : PassLines input w h bpp types s m₀) :
    ∀ n i m, i + n = 7 → PassesDone input w h bpp types s m₀ i m →
      ((∀ j < 7, i ≤ j → ∀ y < passh w h j, (types j y).toNat ≤ 4) → ∃ m',
        processPasses input w h bpp n i m = some (m', 0) ∧
        PassesDone input w h bpp types s m₀ 7 m') ∧
      ((¬ ∀ j < 7, i ≤ j → ∀ y < passh w h j, (types j y).toNat ≤ 4) → ∃ m',
        processPasses input w h bpp n i m = some (m', 36)) := by
  intro n
  induction n with
  | zero =>
    intro i m hi hdone
    obtain rfl : i = 7 := hi
    exact ⟨fun _ => ⟨m, rfl, hdone⟩, fun h => absurd (fun j hj hle => by omega) h⟩
  | succ n ih =>
    intro i m hi hdone
    obtain ⟨hvalid, hinvalid⟩ := hdone.step hbpp hbytes hlines (by omega) n
    by_cases htypes : ∀ y < passh w h i, (types i y).toNat ≤ 4
    · obtain ⟨m', hstep, hdone'⟩ := hvalid htypes
      have hiff : (∀ j < 7, i + 1 ≤ j → ∀ y < passh w h j, (types j y).toNat ≤ 4) ↔
          ∀ j < 7, i ≤ j → ∀ y < passh w h j, (types j y).toNat ≤ 4 := by
        refine forall₂_congr fun j _ => ⟨fun hrest hle => ?_, fun hrest hle => hrest (by omega)⟩
        rcases hle.eq_or_lt with rfl | hlt
        · exact htypes
        · exact hrest hlt
      rw [hstep, ← hiff]
      exact ih (i + 1) m' (by omega) hdone'
    · obtain ⟨m', hstep⟩ := hinvalid htypes
      exact ⟨fun hall => absurd (hall i (by omega) le_rfl) htypes, fun _ => ⟨m', hstep⟩⟩

end

/-! ### The pixels -/

/-- A reduced image: where its filtered lines start in the data, where they are unfiltered to when
this is done over the data, and its size. -/
structure Reduced where
  start : ℕ
  target : ℕ
  width : ℕ
  height : ℕ

/-- The reduced images of the data: the passes, or the image itself. -/
def reduced (info : Info) (w h i : ℕ) : Reduced :=
  if info.interlaceMethod = 0 then ⟨0, 0, w, h⟩
  else ⟨filterPassstart w h info.color.getBpp i, paddedPassstart w h info.color.getBpp i,
    passw w h i, passh w h i⟩

def reducedCount (info : Info) : ℕ := if info.interlaceMethod = 0 then 1 else 7

/-- The reduced image that a pixel belongs to, and its column and row there. -/
def place (info : Info) (x y : ℕ) : ℕ × ℕ × ℕ :=
  if info.interlaceMethod = 0 then (0, x, y) else (passOf x y, passX x y, passY x y)

/-- Bit `b` of the pixel in column `x` of row `y` of the image, in the unfiltered lines. -/
def imageBit (info : Info) (w h : ℕ) (types s : ℕ → ℕ → UInt8) (x y b : ℕ) : Bool :=
  let (i, x', y') := place info x y
  let width := (reduced info w h i).width
  pixelBit (raw (types i) (s i) width info.color.getBpp) width info.color.getBpp x' y' b

/-- All filter types are defined. -/
def ValidTypes (info : Info) (w h : ℕ) (types : ℕ → ℕ → UInt8) : Prop :=
  ∀ i < reducedCount info, ∀ y < (reduced info w h i).height, (types i y).toNat ≤ 4

instance (info : Info) (w h : ℕ) (types : ℕ → ℕ → UInt8) : Decidable (ValidTypes info w h types) :=
  inferInstanceAs (Decidable (∀ i < _, ∀ y < _, _))

/-- The memory in front of a call: the filtered lines of the reduced images are in `input`, and
`out` has room for the pixels and is cleared. -/
structure Scanlines (out input : Pointer β) (info : Info) (w h : ℕ) (types s : ℕ → ℕ → UInt8)
    (m : Memory β UInt8) : Prop where
  filtered : ∀ i < reducedCount info, Filtered (input.shift (reduced info w h i).target)
    (input.shift (reduced info w h i).start) (types i) (s i)
    (linebytes (reduced info w h i).width info.color.getBpp) (reduced info w h i).height m
  apart : out.block ≠ input.block
  inRange : m.InRange out ((w * h * info.color.getBpp + 7) / 8 : ℕ)
  isSome : ∀ n < (w * h * info.color.getBpp + 7) / 8, (m.read out n).isSome = true

/-- The pixels of the image, bit by bit. -/
def HoldsPixels [DecidableEq β] (out : Pointer β) (info : Info) (w h : ℕ)
    (types s : ℕ → ℕ → UInt8) (m : Memory β UInt8) : Prop :=
  ∀ x < w, ∀ y < h, ∀ b < info.color.getBpp,
    bits.get m (bitAddress out ((y * w + x) * info.color.getBpp + b))
      = some (imageBit info w h types s x y b)

section

variable [DecidableEq β] {out input : Pointer β} {info : Info} {w h : ℕ}
  {types s : ℕ → ℕ → UInt8} {m m' : Memory β UInt8}

omit [DecidableEq β] in
lemma shift_zero (p : Pointer β) : p.shift (0 : ℕ) = p := by
  simp only [Pointer.shift, Nat.cast_zero, add_zero]

omit [DecidableEq β] in
lemma index_lt {w h bpp x y b : ℕ} (hx : x < w) (hy : y < h) (hb : b < bpp) :
    (y * w + x) * bpp + b < w * h * bpp := by
  have hindex : y * w + x < h * w := by
    calc y * w + x < y * w + w := Nat.add_lt_add_left hx _
      _ = (y + 1) * w := (Nat.succ_mul y w).symm
      _ ≤ h * w := Nat.mul_le_mul_right w hy
  rw [Nat.mul_comm w h]
  exact bit_lt hindex hb

/-- The room for the pixels is still cleared when only the data was written to. -/
lemma Scanlines.bits_isSome {n : ℕ} (hdata : Scanlines out input info w h types s m)
    (hframe : m.AgreesOutside input n m') {k : ℕ} (hk : k < w * h * info.color.getBpp) :
    (bits.get m' (bitAddress out k)).isSome = true := by
  rw [bits_isSome_iff, hframe.read_eq (Or.inl hdata.apart)]
  exact hdata.isSome _ (by omega)

omit [DecidableEq β] in
/-- The lines of an image that is not interlaced. -/
lemma Scanlines.lines (hdata : Scanlines out input info w h types s m)
    (hinterlace : info.interlaceMethod = 0) :
    Filtered input input (types 0) (s 0) (linebytes w info.color.getBpp) h m := by
  have hfiltered := hdata.filtered 0 (by simp [reducedCount, hinterlace])
  simpa only [reduced, if_pos hinterlace, shift_zero] using hfiltered

lemma validTypes_iff_lines (hinterlace : info.interlaceMethod = 0) :
    ValidTypes info w h types ↔ ∀ y < h, (types 0 y).toNat ≤ 4 := by
  simp [ValidTypes, reducedCount, reduced, hinterlace]

/-- Lines without padding are unfiltered to where the pixels are. -/
lemma unfilter_pixels (hinterlace : info.interlaceMethod = 0) (hbpp : 0 < info.color.getBpp)
    (hpadding : 8 ∣ w * info.color.getBpp) (hw : 0 < w)
    (hdata : Scanlines out input info w h types s m) :
    (ValidTypes info w h types → ∃ m', unfilter out input w h info.color.getBpp m = some (m', 0) ∧
      HoldsPixels out info w h types s m') ∧
    (¬ ValidTypes info w h types → ∃ m',
      unfilter out input w h info.color.getBpp m = some (m', 36)) := by
  have hline := eight_mul_linebytes hpadding
  have hlines := hdata.lines hinterlace
  have hsize : 8 * (linebytes w info.color.getBpp * h) = w * h * info.color.getBpp := by
    rw [← Nat.mul_assoc, hline]
    ring
  have hroom : m.InRange out (linebytes w info.color.getBpp * h : ℕ) := by
    obtain ⟨hlow, hhigh⟩ := hdata.inRange
    exact ⟨hlow, by omega⟩
  have hfiltered : Filtered out input (types 0) (s 0) (linebytes w info.color.getBpp) h m :=
    ⟨hlines.type, hlines.byte, hroom, Or.inl hdata.apart.symm⟩
  rw [validTypes_iff_lines hinterlace]
  obtain ⟨hvalid, hinvalid⟩ := unfilter_result hbpp (Or.inl hw) hfiltered
  refine ⟨fun htypes => ?_, hinvalid⟩
  obtain ⟨m', hrun, hwritten⟩ := hvalid htypes
  refine ⟨m', hrun, fun x hx y hy b hb => ?_⟩
  have hindex : 8 * (linebytes w info.color.getBpp * y) + (x * info.color.getBpp + b)
      = (y * w + x) * info.color.getBpp + b := by
    rw [← Nat.mul_assoc, hline]
    ring
  have hbit := hwritten.bits_get hy hx hb
  rw [hindex] at hbit
  simpa only [imageBit, place, reduced, if_pos hinterlace] using hbit

/-- Lines with padding are unfiltered over the data, and the pixels moved together. -/
lemma unfilter_removePaddingBits (hinterlace : info.interlaceMethod = 0)
    (hbpp : 0 < info.color.getBpp) (hw : 0 < w)
    (hdata : Scanlines out input info w h types s m) :
    (ValidTypes info w h types → ∃ m' m'',
      unfilter input input w h info.color.getBpp m = some (m', 0) ∧
      removePaddingBits out input (w * info.color.getBpp)
        ((w * info.color.getBpp + 7) / 8 * 8) h m' = some m'' ∧
      HoldsPixels out info w h types s m'') ∧
    (¬ ValidTypes info w h types → ∃ m',
      unfilter input input w h info.color.getBpp m = some (m', 36)) := by
  have hline := linebytes_eq_div w info.color.getBpp
  rw [validTypes_iff_lines hinterlace, ← hline]
  obtain ⟨hvalid, hinvalid⟩ := unfilter_result hbpp (Or.inl hw) (hdata.lines hinterlace)
  refine ⟨fun htypes => ?_, hinvalid⟩
  obtain ⟨m', hrun, hwritten⟩ := hvalid htypes
  -- the bits of a line of the data and of the image
  have hsource : ∀ y < h, ∀ k < w * info.color.getBpp,
      bits.get m' (bitAddress input (y * (linebytes w info.color.getBpp * 8) + k))
        = some (bitOf (raw (types 0) (s 0) w info.color.getBpp
            (linebytes w info.color.getBpp * y + k / 8)) (k % 8)) := by
    intro y hy k hk
    have hrow := mul_add_le (linebytes w info.color.getBpp) hy
    have hindex : y * (linebytes w info.color.getBpp * 8) + k
        = 8 * (linebytes w info.color.getBpp * y) + k := by ring
    rw [hindex, bits_get_bitAddress, Nat.mul_add_div (by decide), Nat.mul_add_mod,
      hwritten.read _ (by omega)]
    rfl
  obtain ⟨m'', hremove, hmoved⟩ : ∃ m'', removePaddingBits out input (w * info.color.getBpp)
      (linebytes w info.color.getBpp * 8) h m' = some m'' ∧ _ := by
    refine removePaddingBits_spec (by omega) (fun hblock => absurd hblock hdata.apart)
      (fun y hy k hk => ?_) fun y hy k hk => ?_
    · rw [hsource y hy k hk]
      rfl
    · refine hdata.bits_isSome hwritten.frame ?_
      have hbit := (line_bit_lt hy hk).2
      have hswap : w * h * info.color.getBpp = h * (w * info.color.getBpp) := by ring
      omega
  refine ⟨m', m'', hrun, hremove, fun x hx y hy b hb => ?_⟩
  have hbit := bit_lt hx hb
  have hmove := hmoved.get_dest (y, x * info.color.getBpp + b) (mem_positions.mpr ⟨hy, hbit⟩)
  have hindex : (y * w + x) * info.color.getBpp + b
      = y * (w * info.color.getBpp) + (x * info.color.getBpp + b) := by ring
  simp only [hsource y hy _ hbit] at hmove
  rw [hindex, hmove]
  simp only [imageBit, place, reduced, if_pos hinterlace, pixelBit]

/-- The passes are brought together. -/
lemma processPasses_adam7Deinterlace (hinterlace : info.interlaceMethod ≠ 0)
    (hbpp : 0 < info.color.getBpp) (hbytes : info.color.getBpp < 8 ∨ 8 ∣ info.color.getBpp)
    (hdata : Scanlines out input info w h types s m) :
    (ValidTypes info w h types → ∃ m' m'',
      processPasses input w h info.color.getBpp 7 0 m = some (m', 0) ∧
      adam7Deinterlace out input w h info.color.getBpp m' = some m'' ∧
      HoldsPixels out info w h types s m'') ∧
    (¬ ValidTypes info w h types → ∃ m',
      processPasses input w h info.color.getBpp 7 0 m = some (m', 36)) := by
  have hlines : PassLines input w h info.color.getBpp types s m := by
    intro i hi
    have hfiltered := hdata.filtered i (by simpa only [reducedCount, if_neg hinterlace] using hi)
    simpa only [reduced, if_neg hinterlace] using hfiltered
  have hstart : PassesDone input w h info.color.getBpp types s m 0 m :=
    ⟨.refl _ _ _, hlines.isSome, fun j hj => absurd hj (Nat.not_lt_zero j)⟩
  have htypes_iff : ValidTypes info w h types ↔
      ∀ j < 7, 0 ≤ j → ∀ y < passh w h j, (types j y).toNat ≤ 4 := by
    simp [ValidTypes, reducedCount, reduced, hinterlace]
  rw [htypes_iff]
  obtain ⟨hvalid, hinvalid⟩ := processPasses_spec hbpp hbytes hlines 7 0 m rfl hstart
  refine ⟨fun htypes => ?_, hinvalid⟩
  obtain ⟨m', hrun, hdone⟩ := hvalid htypes
  have hsource : ∀ p ∈ pixelParts w h info.color.getBpp, bits.get m' (bitAddress input
      (8 * passstart w h info.color.getBpp p.pass + p.passIndex w h info.color.getBpp))
        = some (pixelBit (raw (types p.pass) (s p.pass) (passw w h p.pass) info.color.getBpp)
            (passw w h p.pass) info.color.getBpp p.x p.y p.b) := by
    intro p hp
    obtain ⟨hi, hy, hx, hb⟩ := mem_pixelParts.mp hp
    exact hdone.pixel p.pass hi p.y hy p.x hx p.b hb
  obtain ⟨m'', hmove, hmoved⟩ := adam7Deinterlace_spec hbytes hdata.apart
    (fun p hp => by rw [hsource p hp]; rfl) fun p hp => by
      obtain ⟨hX, hY⟩ := PixelPart.position_lt hp
      exact hdata.bits_isSome hdone.frame (index_lt hX hY (mem_pixelParts.mp hp).2.2.2)
  refine ⟨m', m'', hrun, hmove, fun x hx y hy b hb => ?_⟩
  obtain ⟨hX, hY⟩ := passOf_position x y
  have hpass := (mem_pass_iff (passOf_lt x y)).mpr ⟨hX.symm ▸ hx, hY.symm ▸ hy⟩
  have hp : (⟨passOf x y, passY x y, passX x y, b⟩ : PixelPart)
      ∈ pixelParts w h info.color.getBpp :=
    mem_pixelParts.mpr ⟨passOf_lt x y, hpass.2, hpass.1, hb⟩
  have hbit := hmoved _ hp
  rw [hsource _ hp] at hbit
  simp only [PixelPart.imageIndex, PixelPart.X, PixelPart.Y, hX, hY] at hbit
  rw [hbit]
  simp only [imageBit, place, reduced, if_neg hinterlace]

omit [DecidableEq β] in
/-- Pixels that are moved once the lines are unfiltered, if that gives no error. -/
lemma move_after {valid : Prop} {Result : Memory β UInt8 → Prop}
    {lines : Option (Memory β UInt8 × ℕ)} {move : Memory β UInt8 → Option (Memory β UInt8)}
    (h : (valid → ∃ m' m'', lines = some (m', 0) ∧ move m' = some m'' ∧ Result m'') ∧
      (¬ valid → ∃ m', lines = some (m', 36))) :
    (valid → ∃ m', (do
        let (m, error) ← lines
        if error ≠ 0 then return (m, error)
        else
          let m ← move m
          return (m, 0)) = some (m', 0) ∧ Result m') ∧
    (¬ valid → ∃ m', (do
        let (m, error) ← lines
        if error ≠ 0 then return (m, error)
        else
          let m ← move m
          return (m, 0)) = some (m', 36)) := by
  obtain ⟨hvalid, hinvalid⟩ := h
  constructor
  · intro htypes
    obtain ⟨m', m'', rfl, hmove, hresult⟩ := hvalid htypes
    refine ⟨m'', ?_, hresult⟩
    simp only [Option.bind_eq_bind, Option.bind_some, hmove]
    rfl
  · intro htypes
    obtain ⟨m', rfl⟩ := hinvalid htypes
    exact ⟨m', rfl⟩

/-- The result holds every pixel of the image, interlaced or not and whatever the size of a pixel,
as it was before filtering; an undefined filter type ends the call with the error 36. -/
theorem postProcessScanlines_spec (hbpp : 0 < info.color.getBpp)
    (hbytes : info.color.getBpp < 8 ∨ 8 ∣ info.color.getBpp) (hw : 0 < w)
    (hdata : Scanlines out input info w h types s m) :
    (ValidTypes info w h types → ∃ m', postProcessScanlines out input w h info m = some (m', 0) ∧
      HoldsPixels out info w h types s m') ∧
    (¬ ValidTypes info w h types → ∃ m',
      postProcessScanlines out input w h info m = some (m', 36)) := by
  rw [postProcessScanlines]
  simp only [if_neg hbpp.ne']
  split_ifs with hinterlace hpadding
  · exact move_after (unfilter_removePaddingBits hinterlace hbpp hw hdata)
  · refine unfilter_pixels hinterlace hbpp ?_ hw hdata
    rcases hbytes with hlt | hdvd
    · exact Dvd.intro_left _ (not_not.mp fun hne => hpadding ⟨hlt, fun heq => hne heq.symm⟩)
    · exact hdvd.mul_left w
  · exact move_after (processPasses_adam7Deinterlace hinterlace hbpp hbytes hdata)

end

/-- The interlaced lines of a black and white image of two by two pixels in block `true`, a
pass of one pixel, another one, and a pass of two pixels with a filter; the room for the result is
block `false`. -/
def interlacedLines : Memory Bool UInt8 :=
  ⟨fun b => if b then ⟨6, fun k => [0, 128, 0, 0, 1, 64][k]?⟩ else ⟨1, fun _ => some 0⟩⟩

def interlacedInfo : Info := ⟨⟨.grey, 1⟩, 1⟩

def interlacedTypes (i _ : ℕ) : UInt8 := if i = 6 then 1 else 0

def interlacedBytes (i _ : ℕ) : UInt8 := if i = 0 then 128 else if i = 6 then 64 else 0

/-- The upper left and the lower right pixel are white. -/
theorem postProcessScanlines_spec_interlacedLines :
    ∃ m', postProcessScanlines ⟨false, 0⟩ ⟨true, 0⟩ 2 2 interlacedInfo interlacedLines
        = some (m', 0) ∧
      bits.get m' (bitAddress ⟨false, 0⟩ 0) = some true ∧
      bits.get m' (bitAddress ⟨false, 0⟩ 1) = some false ∧
      bits.get m' (bitAddress ⟨false, 0⟩ 2) = some false ∧
      bits.get m' (bitAddress ⟨false, 0⟩ 3) = some true := by
  have hdata : Scanlines ⟨false, 0⟩ ⟨true, 0⟩ interlacedInfo 2 2 interlacedTypes interlacedBytes
      interlacedLines := by
    refine ⟨fun i hi => ?_, by decide, ⟨le_rfl, by decide⟩, by decide⟩
    have hi : i < 7 := hi
    interval_cases i <;>
      exact ⟨by decide, by decide, ⟨by decide, by decide⟩, Or.inr (Or.inr (by decide))⟩
  obtain ⟨m', hrun, hpixels⟩ := (postProcessScanlines_spec (by decide) (Or.inl (by decide))
    (by decide) hdata).1 (by decide)
  have hbits : (List.range 2).map (fun y => (List.range 2).map fun x =>
      imageBit interlacedInfo 2 2 interlacedTypes interlacedBytes x y 0)
        = [[true, false], [false, true]] := by
    decide +kernel
  simp only [List.range_succ, List.range_zero, List.nil_append, List.map_cons,
    List.map_nil, List.cons_append, List.cons.injEq, and_true] at hbits
  obtain ⟨⟨h00, h10⟩, h01, h11⟩ := hbits
  refine ⟨m', hrun, ?_, ?_, ?_, ?_⟩
  · exact h00 ▸ hpixels 0 (by decide) 0 (by decide) 0 (by decide)
  · exact h10 ▸ hpixels 1 (by decide) 0 (by decide) 0 (by decide)
  · exact h01 ▸ hpixels 0 (by decide) 1 (by decide) 0 (by decide)
  · exact h11 ▸ hpixels 1 (by decide) 1 (by decide) 0 (by decide)

end lodepng

end VioFrontend
