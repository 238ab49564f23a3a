import VioFrontend.Library.Access
import VioFrontend.Image.Basic

/-!
# Blurring in place

`blurInplace` convolves an image with a 3x3 Gaussian kernel whose weights are right shifts. The
rows that it overwrites are kept in a buffer of three rows, where row `y` has slot `y % 3`, until
the rows below have been blurred too. So it computes `Raster.blur`, which reads only original
pixels.

The accesses to the image are a parameter of the code; `blurInplace` is the code on plain memory.
-/

namespace VioFrontend

open Checked

variable {β : Type} [DecidableEq β]

/-- Three values under the kernel `{2, 1, 2}` of right shifts. -/
def kernelSum (a b c : ℕ) : ℕ := (a >>> 2) + (b >>> 1) + (c >>> 2)

/-- The horizontal convolution at column `x` of the buffered row that starts at `row`. -/
def horizontalSum (buffer : Buffer UInt8) (row : ℤ) (x : ℤ) : Option ℕ := do
  let p0 ← buffer.read (row + (x - 1))
  let p1 ← buffer.read (row + x)
  let p2 ← buffer.read (row + (x + 1))
  some (kernelSum p0.toNat p1.toNat p2.toNat)

/-! ### The code over its accesses to the image -/

section

variable {β μ : Type} (access : Access β UInt8 μ)

/-- `memcpy(&buffer[start], &p[i], n)`. -/
def copyRowOver (m : μ) (p : Pointer β) (i : ℤ) (n : ℕ) (buffer : Buffer UInt8) (start : ℤ) :
    Option (Buffer UInt8) :=
  (List.range n).foldlM (fun buffer (x : ℕ) => do
    let v ← access.read m p (i + x)
    buffer.write (start + x) v) buffer

/-- The pixel of the inner loop: the vertical convolution of three horizontal ones. -/
def blurPixelOver (data : Pointer β) (width : ℕ) (buffer : Buffer UInt8) (row0 row1 row2 : ℤ)
    (y : ℕ) (m : μ) (x : ℕ) : Option μ := do
  let s0 ← horizontalSum buffer row0 x
  let s1 ← horizontalSum buffer row1 x
  let s2 ← horizontalSum buffer row2 x
  let r0 := UInt8.ofNat (s0 >>> 2)
  let r1 := UInt8.ofNat (s1 >>> 1)
  let r2 := UInt8.ofNat (s2 >>> 2)
  access.write m data (y * width + x) (UInt8.ofNat (r0.toNat + r1.toNat + r2.toNat))

/-- The iteration of the outer loop for row `y`. -/
def blurRowOver (data : Pointer β) (width : ℕ) (rowBufferPtr : Buffer ℤ) (y : ℕ)
    (s : μ × Buffer UInt8) : Option (μ × Buffer UInt8) := do
  let row2 ← rowBufferPtr.read (y + 1 : ℕ)
  let buffer ← copyRowOver access s.1 data ((y + 1 : ℕ) * width) width s.2 row2
  let row0 ← rowBufferPtr.read (y - 1 : ℤ)
  let row1 ← rowBufferPtr.read y
  let m ← (List.range (width - 2)).foldlM (fun m k =>
    blurPixelOver access data width buffer row0 row1 row2 y m (k + 1)) s.1
  return (m, buffer)

/-- `blurInplace` with its accesses to the image as a parameter. -/
def blurInplaceOver (image : Image β) (m : μ) : Option μ := do
  let width := image.width
  let height := image.height
  let buffer : Buffer UInt8 := Buffer.blank (width * 3)
  let rowBufferPtr ← (Buffer.blank height).fill (fun i => ((i % 3 : ℕ) : ℤ) * width) height
  let row0 ← rowBufferPtr.read 0
  let buffer ← copyRowOver access m image.data 0 width buffer row0
  let row1 ← rowBufferPtr.read 1
  let buffer ← copyRowOver access m image.data width width buffer row1
  let s ← (List.range (height - 2)).foldlM (fun s n =>
    blurRowOver access image.data width rowBufferPtr (n + 1) s) (m, buffer)
  return s.1

end

/-! ### The code on memory -/

def copyRow (m : Memory β UInt8) (p : Pointer β) (i : ℤ) (n : ℕ) (buffer : Buffer UInt8)
    (start : ℤ) : Option (Buffer UInt8) := copyRowOver Access.plain m p i n buffer start

@[simp] lemma copyRowOver_plain (m : Memory β UInt8) (p : Pointer β) (i : ℤ) (n : ℕ)
    (buffer : Buffer UInt8) (start : ℤ) :
    copyRowOver Access.plain m p i n buffer start = copyRow m p i n buffer start := rfl

def blurPixel (data : Pointer β) (width : ℕ) (buffer : Buffer UInt8) (row0 row1 row2 : ℤ) (y : ℕ)
    (m : Memory β UInt8) (x : ℕ) : Option (Memory β UInt8) :=
  blurPixelOver Access.plain data width buffer row0 row1 row2 y m x

@[simp] lemma blurPixelOver_plain (data : Pointer β) (width : ℕ) (buffer : Buffer UInt8)
    (row0 row1 row2 : ℤ) (y : ℕ) (m : Memory β UInt8) (x : ℕ) :
    blurPixelOver Access.plain data width buffer row0 row1 row2 y m x
      = blurPixel data width buffer row0 row1 row2 y m x := rfl

def blurRow (data : Pointer β) (width : ℕ) (rowBufferPtr : Buffer ℤ) (y : ℕ)
    (s : Memory β UInt8 × Buffer UInt8) : Option (Memory β UInt8 × Buffer UInt8) :=
  blurRowOver Access.plain data width rowBufferPtr y s

@[simp] lemma blurRowOver_plain (data : Pointer β) (width : ℕ) (rowBufferPtr : Buffer ℤ) (y : ℕ)
    (s : Memory β UInt8 × Buffer UInt8) :
    blurRowOver Access.plain data width rowBufferPtr y s = blurRow data width rowBufferPtr y s :=
  rfl

def blurInplace (image : Image β) (m : Memory β UInt8) : Option (Memory β UInt8) :=
  blurInplaceOver Access.plain image m

/-! ### The convolution -/

/-- The horizontal convolution of an image. -/
def Raster.horizontal (img : Raster) (x y : ℤ) : ℕ :=
  kernelSum (img.pixel (x - 1) y).toNat (img.pixel x y).toNat (img.pixel (x + 1) y).toNat

/-- The image under the 3x3 kernel; the border pixels stay as they are. -/
def Raster.blur (img : Raster) : Raster where
  width := img.width
  height := img.height
  pixel x y :=
    if (1 ≤ x ∧ x + 1 < img.width) ∧ (1 ≤ y ∧ y + 1 < img.height) then
      UInt8.ofNat (kernelSum (img.horizontal x (y - 1)) (img.horizontal x y)
        (img.horizontal x (y + 1)))
    else img.pixel x y

/-- No sum of the convolution exceeds a byte. -/
lemma kernelSum_le {a b c : ℕ} (ha : a ≤ 255) (hb : b ≤ 255) (hc : c ≤ 255) :
    kernelSum a b c ≤ 253 := by
  simp only [kernelSum, Nat.shiftRight_eq_div_pow]
  omega

lemma Raster.horizontal_le (img : Raster) (x y : ℤ) : img.horizontal x y ≤ 253 :=
  kernelSum_le (Nat.lt_succ_iff.mp (UInt8.toNat_lt _)) (Nat.lt_succ_iff.mp (UInt8.toNat_lt _))
    (Nat.lt_succ_iff.mp (UInt8.toNat_lt _))

/-- The conversions to bytes lose nothing. -/
lemma verticalSum_eq {s0 s1 s2 : ℕ} (h0 : s0 ≤ 253) (h1 : s1 ≤ 253) (h2 : s2 ≤ 253) :
    (UInt8.ofNat (s0 >>> 2)).toNat + (UInt8.ofNat (s1 >>> 1)).toNat
      + (UInt8.ofNat (s2 >>> 2)).toNat = kernelSum s0 s1 s2 := by
  have hsmall : ∀ {s k : ℕ}, s ≤ 253 → (UInt8.ofNat (s >>> k)).toNat = s >>> k := by
    intro s k hs
    have hsize : s < UInt8.size := hs.trans_lt (by decide)
    refine UInt8.toNat_ofNat_of_lt' (lt_of_le_of_lt ?_ hsize)
    rw [Nat.shiftRight_eq_div_pow]
    exact Nat.div_le_self _ _
  rw [hsmall h0, hsmall h1, hsmall h2, kernelSum]

/-! ### The row buffer -/

/-- The copy of `n` bytes that lie in memory into a buffer that has room for them. -/
lemma copyRow_eq {m : Memory β UInt8} {p : Pointer β} {i start : ℤ} {n : ℕ}
    {buffer : Buffer UInt8} {f : ℕ → UInt8} (hstart : 0 ≤ start) (hroom : start + n ≤ buffer.size)
    (hread : ∀ x < n, m.read p (i + x) = some (f x)) :
    ∃ buffer', copyRow m p i n buffer start = some buffer' ∧ buffer'.size = buffer.size ∧
      (∀ x < n, buffer'.read (start + x) = some (f x)) ∧
      ∀ k, k < start ∨ start + n ≤ k → buffer'.read k = buffer.read k := by
  obtain ⟨buffer', hloop, hsize, hcopied, hframe⟩ := Loops.exists_foldlM_range (n := n)
    (f := fun buffer (x : ℕ) => do
      let v ← m.read p (i + x)
      buffer.write (start + x) v) (s := buffer)
    (fun n' (b : Buffer UInt8) => b.size = buffer.size ∧
      (∀ x < n', b.read (start + x) = some (f x)) ∧
      ∀ k, k < start ∨ start + n ≤ k → b.read k = buffer.read k)
    ⟨rfl, by simp, fun _ _ => rfl⟩ (by
      rintro n' hn b ⟨hsize, hcopied, hframe⟩
      have hin : b.InBounds (start + n') := ⟨by omega, by omega⟩
      refine ⟨b.set (start + n') (f n'), ?_, hsize, ?_, ?_⟩
      · simp only [hread n' hn, Buffer.write_eq_some hin, Option.bind_eq_bind, Option.bind_some]
      · intro x hx
        rcases Nat.lt_succ_iff_lt_or_eq.mp hx with hlt | rfl
        · rw [Buffer.read_set_of_ne hin.1 (by omega), hcopied x hlt]
        · exact Buffer.read_set_self hin _
      · intro k hk
        rw [Buffer.read_set_of_ne hin.1 (by omega), hframe k hk])
  exact ⟨buffer', hloop, hsize, hcopied, hframe⟩

/-- The buffer holds row `y` of the image in slot `y % 3`. -/
def HoldsRow (img : Raster) (buffer : Buffer UInt8) (y : ℕ) : Prop :=
  ∀ x : ℕ, x < img.width →
    buffer.read (((y % 3 : ℕ) : ℤ) * img.width + x) = some (img.pixel x y)

variable {image : Image β} {img : Raster} {m : Memory β UInt8}

/-- Copying a row into its slot leaves the other two slots alone. -/
lemma copyRow_spec {buffer : Buffer UInt8} {y : ℕ} (hsize : buffer.size = img.width * 3)
    (hread : ∀ x : ℕ, x < img.width →
      m.read image.data ((y : ℤ) * img.width + x) = some (img.pixel x y)) :
    ∃ buffer', copyRow m image.data ((y : ℤ) * img.width) img.width buffer
        (((y % 3 : ℕ) : ℤ) * img.width) = some buffer' ∧
      buffer'.size = img.width * 3 ∧ HoldsRow img buffer' y ∧
      ∀ r, r % 3 ≠ y % 3 → HoldsRow img buffer r → HoldsRow img buffer' r := by
  have hslot : ((y % 3 : ℕ) : ℤ) * img.width ≤ 2 * img.width :=
    Int.mul_le_mul_of_nonneg_right (by omega) (by omega)
  have hslot_nonneg : 0 ≤ ((y % 3 : ℕ) : ℤ) * img.width := by positivity
  have hroom : ((y % 3 : ℕ) : ℤ) * img.width + img.width ≤ buffer.size := by omega
  obtain ⟨buffer', hcopy, hsize', hcopied, hframe⟩ := copyRow_eq hslot_nonneg hroom hread
  refine ⟨buffer', hcopy, hsize'.trans hsize, hcopied, fun r hr h x hx => ?_⟩
  have hdisjoint := row_disjoint (a := ((r % 3 : ℕ) : ℤ)) (b := ((y % 3 : ℕ) : ℤ)) (c := x)
    (w := img.width) (by exact_mod_cast hr) (by omega) (by omega)
  rw [hframe _ hdisjoint]
  exact h x hx

lemma horizontalSum_spec {buffer : Buffer UInt8} {x y : ℕ} (h : HoldsRow img buffer y)
    (hx : 1 ≤ x ∧ x + 1 < img.width) :
    horizontalSum buffer (((y % 3 : ℕ) : ℤ) * img.width) x = some (img.horizontal x y) := by
  have hleft := h (x - 1) (by omega)
  have hmid := h x (by omega)
  have hright := h (x + 1) (by omega)
  rw [Nat.cast_sub hx.1] at hleft
  push_cast at hleft hmid hright
  push_cast
  simp only [horizontalSum, hleft, hmid, hright, Option.bind_eq_bind, Option.bind_some,
    Raster.horizontal]

/-! ### The loops -/

/-- The rows above row `y` are blurred, and row `y` up to column `k`; the rest is original. -/
structure Blurred (image : Image β) (img : Raster) (m : Memory β UInt8) (k y : ℕ)
    (m' : Memory β UInt8) : Prop where
  frame : m.AgreesOutside image.data (image.height * image.width) m'
  pixel : ∀ x r : ℕ, x < image.width → r < image.height →
    m'.read image.data (r * image.width + x)
      = some (if r < y ∨ (r = y ∧ x ≤ k) then img.blur.pixel x r else img.pixel x r)

omit [DecidableEq β] in
/-- The first column is a border, so a row starts out as blurred up to there. -/
lemma Blurred.next_row {k y : ℕ} {m' : Memory β UInt8} (h : Blurred image img m k y m')
    (hwidth : img.width = image.width) (hk : image.width ≤ k + 2) :
    Blurred image img m 0 (y + 1) m' := by
  refine ⟨h.frame, fun x r hx hr => ?_⟩
  rw [h.pixel x r hx hr]
  by_cases hdone : r < y ∨ (r = y ∧ x ≤ k)
  · rw [if_pos hdone, if_pos (by omega)]
  · rw [if_neg hdone]
    split_ifs with hnext
    · have hborder : ¬ ((1 ≤ (x : ℤ) ∧ (x : ℤ) + 1 < img.width) ∧
          (1 ≤ (r : ℤ) ∧ (r : ℤ) + 1 < img.height)) := by omega
      simp only [Raster.blur, if_neg hborder]
    · rfl

lemma blurPixel_spec {buffer : Buffer UInt8} {k y : ℕ} {m' : Memory β UInt8}
    (hwidth : img.width = image.width) (hheight : img.height = image.height)
    (himage : image.InMemory m) (hy : 1 ≤ y ∧ y + 1 < image.height) (hk : k + 2 < image.width)
    (h0 : HoldsRow img buffer (y - 1)) (h1 : HoldsRow img buffer y)
    (h2 : HoldsRow img buffer (y + 1)) (h : Blurred image img m k y m') :
    ∃ m'', blurPixel image.data image.width buffer ((((y - 1) % 3 : ℕ) : ℤ) * image.width)
        (((y % 3 : ℕ) : ℤ) * image.width) ((((y + 1) % 3 : ℕ) : ℤ) * image.width) y m' (k + 1)
          = some m'' ∧
      Blurred image img m (k + 1) y m'' := by
  have hbound := image.address_bound (x := k + 1) (y := y) (by omega) (by omega)
  have hx : 1 ≤ k + 1 ∧ k + 1 + 1 < img.width := by omega
  have s0 := horizontalSum_spec h0 hx
  have s1 := horizontalSum_spec h1 hx
  have s2 := horizontalSum_spec h2 hx
  rw [hwidth] at s0 s1 s2
  obtain ⟨m'', hwrite, hself, hother⟩ := Memory.exists_write (h.frame.inRange himage)
    (i := y * image.width + (k + 1 : ℕ)) hbound.1 hbound.2 (img.blur.pixel (k + 1 : ℕ) y)
  have hinside : (1 ≤ ((k + 1 : ℕ) : ℤ) ∧ ((k + 1 : ℕ) : ℤ) + 1 < img.width) ∧
      (1 ≤ (y : ℤ) ∧ (y : ℤ) + 1 < img.height) := by omega
  refine ⟨m'', ?_, ?_, ?_⟩
  · have hpixel : img.blur.pixel (k + 1 : ℕ) y = UInt8.ofNat (kernelSum
        (img.horizontal (k + 1 : ℕ) (y - 1 : ℕ)) (img.horizontal (k + 1 : ℕ) y)
        (img.horizontal (k + 1 : ℕ) (y + 1 : ℕ))) := by
      simp only [Raster.blur]
      rw [if_pos hinside, Nat.cast_sub hy.1]
      push_cast
      rfl
    rw [hpixel] at hwrite
    simp only [blurPixel, blurPixelOver, s0, s1, s2, Option.bind_eq_bind, Option.bind_some,
      verticalSum_eq (img.horizontal_le _ _) (img.horizontal_le _ _) (img.horizontal_le _ _)]
    exact hwrite
  · exact h.frame.trans (hother.mono rfl (by simp only [Pointer.shift]; omega)
      (by simp only [Pointer.shift]; omega))
  · intro x r hxw hrh
    by_cases hthis : r = y ∧ x = k + 1
    · obtain ⟨rfl, rfl⟩ := hthis
      rw [hself, if_pos (by omega)]
    · have hne : (r : ℤ) * image.width + x ≠ y * image.width + (k + 1 : ℕ) := by
        by_cases hr : r = y
        · subst hr
          omega
        · have := row_disjoint (a := r) (b := y) (c := x) (w := image.width)
            (by exact_mod_cast hr) (by omega) (by omega)
          omega
      rw [hother.read_eq (Or.inr (by simp only [Pointer.shift]; omega)), h.pixel x r hxw hrh]
      congr 1
      have hiff : (r < y ∨ (r = y ∧ x ≤ k)) ↔ (r < y ∨ (r = y ∧ x ≤ k + 1)) := by omega
      simp only [hiff]

/-- The table of row pointers. -/
def IsRowTable (image : Image β) (rowBufferPtr : Buffer ℤ) : Prop :=
  ∀ y : ℕ, y < image.height → rowBufferPtr.read y = some (((y % 3 : ℕ) : ℤ) * image.width)

lemma blurRow_spec {rowBufferPtr : Buffer ℤ} {buffer : Buffer UInt8} {y : ℕ} {m' : Memory β UInt8}
    (hwidth : img.width = image.width) (hheight : img.height = image.height)
    (himage : image.InMemory m) (htable : IsRowTable image rowBufferPtr)
    (hy : 1 ≤ y ∧ y + 1 < image.height) (hsize : buffer.size = img.width * 3)
    (h0 : HoldsRow img buffer (y - 1)) (h1 : HoldsRow img buffer y)
    (h : Blurred image img m 0 y m') :
    ∃ m'' buffer',
      blurRow image.data image.width rowBufferPtr y (m', buffer) = some (m'', buffer') ∧
      Blurred image img m 0 (y + 1) m'' ∧ buffer'.size = img.width * 3 ∧
      HoldsRow img buffer' y ∧ HoldsRow img buffer' (y + 1) := by
  have hread : ∀ x : ℕ, x < img.width →
      m'.read image.data (((y + 1 : ℕ) : ℤ) * img.width + x) = some (img.pixel x (y + 1 : ℕ)) := by
    intro x hx
    rw [hwidth, h.pixel x (y + 1) (by omega) (by omega), if_neg (by omega)]
  obtain ⟨buffer', hcopy, hsize', h2, hkeep⟩ := copyRow_spec hsize hread
  have h0' := hkeep (y - 1) (by omega) h0
  have h1' := hkeep y (by omega) h1
  have hprev := htable (y - 1) (by omega)
  rw [Nat.cast_sub hy.1] at hprev
  obtain ⟨m'', hloop, hblurred⟩ := Loops.exists_foldlM_range (n := image.width - 2)
    (P := fun k m' => Blurred image img m k y m') h fun k hk m' h =>
      blurPixel_spec hwidth hheight himage hy (by omega) h0' h1' h2 h
  refine ⟨m'', buffer', ?_, hblurred.next_row hwidth (by omega), hsize', h1', h2⟩
  rw [hwidth] at hcopy
  simp only [blurRow, blurRowOver, copyRowOver_plain, blurPixelOver_plain,
    htable (y + 1) (by omega), htable y (by omega), hcopy, Option.bind_eq_bind, Option.bind_some]
  simp only [Nat.cast_one] at hprev
  simp only [hprev, Option.bind_some, hloop]
  rfl

/-- The image is blurred, and nothing else has changed. -/
lemma blurInplace_spec (himage : image.InMemory m) (hholds : image.Holds m img)
    (hheight2 : 2 ≤ image.height) :
    ∃ m', blurInplace image m = some m' ∧ image.Holds m' img.blur ∧
      m.AgreesOutside image.data (image.height * image.width) m' := by
  obtain ⟨hwidth, hheight, hread⟩ := hholds
  obtain ⟨rowBufferPtr, hfill, -, htable⟩ := Buffer.fill_spec (b := Buffer.blank image.height)
    (f := fun i => ((i % 3 : ℕ) : ℤ) * image.width) (n := image.height) (by simp)
  have hcopy : ∀ y < image.height, ∀ x : ℕ, x < img.width →
      m.read image.data ((y : ℤ) * img.width + x) = some (img.pixel x y) := fun y hy x hx => by
    rw [hwidth]
    exact hread x y (by omega) hy
  have hblank : (Buffer.blank (image.width * 3) : Buffer UInt8).size = img.width * 3 := by
    simp [hwidth]
  obtain ⟨buffer₁, hcopy₁, hsize₁, hrow₁, -⟩ := copyRow_spec hblank (hcopy 0 (by omega))
  obtain ⟨buffer₂, hcopy₂, hsize₂, hrow₂, hkeep₂⟩ := copyRow_spec hsize₁ (hcopy 1 (by omega))
  have hstart : Blurred image img m 0 1 m := by
    refine ⟨Memory.AgreesOutside.refl _ _ _, fun x r hx hr => ?_⟩
    have hborder : r < 1 ∨ (r = 1 ∧ x ≤ 0) → ¬ ((1 ≤ (x : ℤ) ∧ (x : ℤ) + 1 < img.width) ∧
        (1 ≤ (r : ℤ) ∧ (r : ℤ) + 1 < img.height)) := by omega
    rw [hread x r hx hr]
    split_ifs with hdone
    · simp only [Raster.blur, if_neg (hborder hdone)]
    · rfl
  obtain ⟨s, hloop, hblurred, -⟩ := Loops.exists_foldlM_range (n := image.height - 2)
    (f := fun s n => blurRow image.data image.width rowBufferPtr (n + 1) s) (s := (m, buffer₂))
    (fun n (s : Memory β UInt8 × Buffer UInt8) => Blurred image img m 0 (n + 1) s.1 ∧
      s.2.size = img.width * 3 ∧ HoldsRow img s.2 n ∧ HoldsRow img s.2 (n + 1))
    ⟨hstart, hsize₂, hkeep₂ 0 (by omega) hrow₁, hrow₂⟩ (by
      rintro n hn ⟨m', buffer⟩ ⟨h, hsize, h0, h1⟩
      obtain ⟨m'', buffer', hrow, hnext⟩ := blurRow_spec (y := n + 1) hwidth hheight himage htable
        (by omega) hsize (by simpa using h0) h1 h
      exact ⟨(m'', buffer'), hrow, hnext⟩)
  have hzero := htable 0 (by omega)
  have hone := htable 1 (by omega)
  refine ⟨s.1, ?_, ⟨hwidth, hheight, fun x y hx hy => ?_⟩, hblurred.frame⟩
  · rw [hwidth] at hcopy₁ hcopy₂
    simp only [Nat.cast_zero, Nat.cast_one, Nat.zero_mod, zero_mul, one_mul, Nat.one_mod]
    at hzero hone hcopy₁ hcopy₂
    simp only [blurInplace, blurInplaceOver, copyRowOver_plain, blurRowOver_plain, hfill, hzero,
      hone, hcopy₁, hcopy₂, hloop, Option.bind_eq_bind, Option.bind_some]
    rfl
  · have hborder : ¬ (y < image.height - 2 + 1 ∨ (y = image.height - 2 + 1 ∧ x ≤ 0)) →
        ¬ ((1 ≤ (x : ℤ) ∧ (x : ℤ) + 1 < img.width) ∧
          (1 ≤ (y : ℤ) ∧ (y : ℤ) + 1 < img.height)) := by omega
    rw [hblurred.pixel x y hx hy]
    split_ifs with hdone
    · rfl
    · simp only [Raster.blur, if_neg (hborder hdone)]

end VioFrontend
