import VioFrontend.Library.Access
import VioFrontend.Image.ImagePyramid

/-!
# Downsampling in place

`downsampleInplace` writes the halved image over the source. The two source rows of a new row are
copied into a buffer before, and the new row ends before the first source row that is still
needed, so the result is the one of `downsample`.
-/

namespace VioFrontend

open Checked

variable {β : Type} [DecidableEq β]

/-- The pixel of the inner loop for column `i` of row `j`. -/
def downsampleInplacePixel (data : Pointer β) (width newWidth : ℕ) (buffer : Buffer UInt8) (j : ℕ)
    (m : Memory β UInt8) (i : ℕ) : Option (Memory β UInt8) := do
  let a ← buffer.read (i * 2)
  let b ← buffer.read (i * 2 + 1)
  let c ← buffer.read (width + i * 2)
  let d ← buffer.read (width + i * 2 + 1)
  m.write data (j * newWidth + i) (UInt8.ofNat ((a.toNat + b.toNat + c.toNat + d.toNat) / 4))

/-- The iteration of the outer loop for row `j`. -/
def downsampleInplaceRow (data : Pointer β) (width newWidth : ℕ) (s : Memory β UInt8 × Buffer UInt8)
    (j : ℕ) : Option (Memory β UInt8 × Buffer UInt8) := do
  let buffer ← copyRow s.1 data (width * j * 2) width s.2 0
  let buffer ← copyRow s.1 data (width * j * 2 + width) width buffer width
  let m ← (List.range newWidth).foldlM (downsampleInplacePixel data width newWidth buffer j) s.1
  return (m, buffer)

/-- Downsample `source` over its own data; its size is set. -/
def downsampleInplace (source : Image β) (m : Memory β UInt8) :
    Option (Image β × Memory β UInt8) := do
  let newWidth := source.width >>> 1
  let newHeight := source.height >>> 1
  let s ← (List.range newHeight).foldlM (downsampleInplaceRow source.data source.width newWidth)
    (m, Buffer.blank (source.width * 2))
  return ({ source with width := newWidth, height := newHeight }, s.1)

/-- The image that is left. -/
def Image.halve (source : Image β) : Image β :=
  { source with width := source.width >>> 1, height := source.height >>> 1 }

section

variable {source : Image β} {img : Raster} {m : Memory β UInt8}

omit [DecidableEq β] in
lemma Image.halve_inMemory (hmemory : source.InMemory m) : source.halve.InMemory m := by
  obtain ⟨hlow, hhigh⟩ := hmemory
  have hsize : ((source.height / 2 * (source.width / 2) : ℕ) : ℤ)
      ≤ (source.height * source.width : ℕ) := by
    exact_mod_cast Nat.mul_le_mul (Nat.div_le_self _ _) (Nat.div_le_self _ _)
  push_cast at hsize
  exact ⟨hlow, by simp only [halve, Nat.shiftRight_one]; push_cast; omega⟩

omit [DecidableEq β] in
/-- The new rows end before the source row that is read next. -/
lemma Downsampled.read_source {j dy x : ℕ} {m' : Memory β UInt8} (hsource : source.Holds m img)
    (h : Downsampled source.halve img m 0 j m') (hx : x < source.width)
    (hy : 2 * j + dy < source.height) :
    m'.read source.data ((2 * j + dy : ℕ) * source.width + x)
      = some (img.pixel x (2 * j + dy : ℕ)) := by
  have hfront : j * (source.width / 2) ≤ (2 * j + dy) * source.width :=
    Nat.mul_le_mul (by omega) (Nat.div_le_self _ _)
  have hfront : (j : ℤ) * (source.width / 2 : ℕ) ≤ (2 * j + dy : ℕ) * source.width := by
    exact_mod_cast hfront
  rw [← hsource.read x _ hx hy]
  refine h.frame.read_eq (Or.inr (Or.inr ?_))
  simp only [Image.halve, Nat.shiftRight_one]
  omega

lemma downsampleInplaceRow_spec (hsource : source.Holds m img) (hmemory : source.InMemory m)
    {j : ℕ} (hj : j < source.height / 2) {m' : Memory β UInt8} {buffer : Buffer UInt8}
    (hsize : buffer.size = source.width * 2) (h : Downsampled source.halve img m 0 j m') :
    ∃ m'' buffer', downsampleInplaceRow source.data source.width (source.width >>> 1) (m', buffer) j
        = some (m'', buffer') ∧
      buffer'.size = source.width * 2 ∧ Downsampled source.halve img m 0 (j + 1) m'' := by
  have hread : ∀ (dy : ℕ) (a : ℤ), dy < 2 → a = (2 * j + dy : ℕ) * source.width →
      ∀ x < source.width, m'.read source.data (a + x) = some (img.pixel x (2 * j + dy : ℕ)) := by
    rintro dy a hdy rfl x hx
    exact h.read_source hsource hx (by omega)
  have hupper := hread 0 (source.width * j * 2) (by omega) (by push_cast; ring)
  have hlower := hread 1 (source.width * j * 2 + source.width) (by omega) (by push_cast; ring)
  have hroom : (0 : ℤ) + source.width ≤ buffer.size := by omega
  obtain ⟨buffer₁, hcopy₁, hsize₁, hrow₁, -⟩ := copyRow_eq le_rfl hroom hupper
  have hroom₁ : (source.width : ℤ) + source.width ≤ buffer₁.size := by omega
  obtain ⟨buffer₂, hcopy₂, hsize₂, hrow₂, hkeep⟩ := copyRow_eq (Nat.cast_nonneg _) hroom₁ hlower
  have hrow₁' : ∀ x < source.width, buffer₂.read x = some (img.pixel x (2 * j + 0 : ℕ)) := by
    intro x hx
    have hx' := hrow₁ x hx
    rw [zero_add] at hx'
    rw [hkeep _ (Or.inl (by omega)), hx']
  obtain ⟨m'', hloop, hdone⟩ := Loops.exists_foldlM_range (n := source.width >>> 1)
    (f := downsampleInplacePixel source.data source.width (source.width >>> 1) buffer₂ j)
    (fun i m' => Downsampled source.halve img m i j m') h (by
      intro i hi m' h
      simp only [Nat.shiftRight_one] at hi
      obtain ⟨m'', hwrite, hnext⟩ := h.write (Image.halve_inMemory hmemory)
        (by simp only [Image.halve, Nat.shiftRight_one]; omega)
        (by simp only [Image.halve, Nat.shiftRight_one]; omega)
      refine ⟨m'', ?_, hnext⟩
      have h00 := hrow₁' (i * 2) (by omega)
      have h10 := hrow₁' (i * 2 + 1) (by omega)
      have h01 := hrow₂ (i * 2) (by omega)
      have h11 := hrow₂ (i * 2 + 1) (by omega)
      push_cast at h00 h10 h01 h11
      rw [← add_assoc] at h11
      simp only [downsampleInplacePixel, h00, h10, h01, h11, Option.bind_eq_bind,
        Option.bind_some]
      simpa [Raster.downsample, Image.halve, mul_comm] using hwrite)
  refine ⟨m'', buffer₂, ?_, by omega, hdone.next_row⟩
  simp only [downsampleInplaceRow, hcopy₁, hcopy₂, hloop, Option.bind_eq_bind, Option.bind_some]
  rfl

/-- The downsampled image is at the start of the data, and nothing else has changed. -/
lemma downsampleInplace_spec (hsource : source.Holds m img) (hmemory : source.InMemory m) :
    ∃ m', downsampleInplace source m = some (source.halve, m') ∧
      source.halve.Holds m' img.downsample ∧
      m.AgreesOutside source.data (source.halve.height * source.halve.width) m' := by
  obtain ⟨⟨m', buffer⟩, hloop, -, hframe, hrows, -⟩ := Loops.exists_foldlM_range
    (n := source.height >>> 1)
    (f := downsampleInplaceRow source.data source.width (source.width >>> 1))
    (s := (m, Buffer.blank (source.width * 2)))
    (fun j s => s.2.size = source.width * 2 ∧ Downsampled source.halve img m 0 j s.1)
    ⟨rfl, Memory.AgreesOutside.refl _ _ _, by simp, by simp⟩ (by
      rintro j hj ⟨m', buffer⟩ ⟨hsize, h⟩
      simp only [Nat.shiftRight_one] at hj
      obtain ⟨m'', buffer', hrow, hnext⟩ := downsampleInplaceRow_spec hsource hmemory hj hsize h
      exact ⟨(m'', buffer'), hrow, hnext⟩)
  refine ⟨m', ?_, ⟨?_, ?_, hrows⟩, hframe.mono rfl le_rfl (by simp [Image.halve])⟩
  · simp only [downsampleInplace, hloop, Option.bind_eq_bind, Option.bind_some]
    rfl
  · simp [Image.halve, Raster.downsample, hsource.width, Nat.shiftRight_one]
  · simp [Image.halve, Raster.downsample, hsource.height, Nat.shiftRight_one]

/-- The image that `downsample` writes into another buffer. -/
lemma downsample_into {destination : Image β} (hsource : source.Holds m img)
    (hdest : m.InRange destination.data ((source.height >>> 1) * (source.width >>> 1) : ℕ))
    (hdisjoint : source.DisjointFrom ⟨destination.data, source.width >>> 1, source.height >>> 1⟩) :
    ∃ m', downsample source destination m
        = some (⟨destination.data, source.width >>> 1, source.height >>> 1⟩, m') ∧
      Image.Holds ⟨destination.data, source.width >>> 1, source.height >>> 1⟩ m'
        img.downsample := by
  have hmemory : Image.InMemory ⟨destination.data, source.width >>> 1, source.height >>> 1⟩ m := by
    push_cast at hdest
    exact hdest
  obtain ⟨m', hrun, hholds, -⟩ := downsample_spec hsource hmemory rfl rfl hdisjoint
  exact ⟨m', hrun, hholds⟩

/-! ### Bytes outside the source -/

/-- Without such a byte the memory still holds the source. -/
lemma Image.Holds.erase {b : β} {k : ℤ} (hsource : source.Holds m img)
    (hout : b ≠ source.data.block ∨ k < source.data.offset ∨
      source.data.offset + source.height * source.width ≤ k) :
    source.Holds (m.erase b k) img := by
  refine ⟨hsource.width, hsource.height, fun x y hx hy => ?_⟩
  have hbound := source.address_bound hx hy
  rw [Memory.read_erase_of_ne, hsource.read x y hx hy]
  rcases hout with hb | hk
  · exact Or.inl (Ne.symm hb)
  · exact Or.inr (by omega)

end

/-- The average of four bytes is a byte. -/
lemma toNat_average (a b c d : UInt8) :
    (UInt8.ofNat ((a.toNat + b.toNat + c.toNat + d.toNat) / 4)).toNat
      = (a.toNat + b.toNat + c.toNat + d.toNat) / 4 := by
  have ha := a.toNat_lt
  have hb := b.toNat_lt
  have hc := c.toNat_lt
  have hd := d.toNat_lt
  refine UInt8.toNat_ofNat_of_lt' ?_
  simp only [UInt8.size]
  omega

/-- Downsampling in place leaves the image that downsampling into another buffer gives, the floor
averages of the 2x2 blocks, and neither of them reads a byte outside the source image. -/
theorem downsampleInplace_eq_downsample (source destination : Image β) (img : Raster)
    (m : Memory β UInt8) (hsource : source.Holds m img) (hmemory : source.InMemory m)
    (hdest : m.InRange destination.data ((source.height >>> 1) * (source.width >>> 1) : ℕ))
    (hdisjoint : source.DisjointFrom
      ⟨destination.data, source.width >>> 1, source.height >>> 1⟩) :
    ∃ m₁ m₂, downsampleInplace source m
        = some (⟨source.data, source.width >>> 1, source.height >>> 1⟩, m₁) ∧
      downsample source destination m
        = some (⟨destination.data, source.width >>> 1, source.height >>> 1⟩, m₂) ∧
      (∀ x y : ℕ, x < source.width >>> 1 → y < source.height >>> 1 →
        ∃ v, m₁.read source.data (y * (source.width >>> 1 : ℕ) + x) = some v ∧
          m₂.read destination.data (y * (source.width >>> 1 : ℕ) + x) = some v ∧
          v.toNat = ((img.pixel (2 * x) (2 * y)).toNat + (img.pixel (2 * x + 1) (2 * y)).toNat +
            (img.pixel (2 * x) (2 * y + 1)).toNat +
            (img.pixel (2 * x + 1) (2 * y + 1)).toNat) / 4) ∧
      ∀ b k, b ≠ source.data.block ∨ k < source.data.offset ∨
          source.data.offset + source.height * source.width ≤ k →
        ¬ Memory.Reads (downsampleInplace source) m b k ∧
          ¬ Memory.Reads (downsample source destination) m b k := by
  obtain ⟨m₁, hrun₁, hholds₁, -⟩ := downsampleInplace_spec hsource hmemory
  obtain ⟨m₂, hrun₂, hholds₂⟩ := downsample_into hsource hdest hdisjoint
  refine ⟨m₁, m₂, hrun₁, hrun₂, fun x y hx hy => ?_, fun b k hout => ?_⟩
  · exact ⟨_, hholds₁.read x y hx hy, hholds₂.read x y hx hy, toNat_average _ _ _ _⟩
  · have hholds := hsource.erase hout
    obtain ⟨m', hrun, -⟩ := downsampleInplace_spec hholds (hmemory.erase b k)
    obtain ⟨m'', hrun', -⟩ := downsample_into hholds (hdest.erase b k) hdisjoint
    exact ⟨Memory.not_reads hrun, Memory.not_reads hrun'⟩

theorem downsampleInplace_eq_downsample_ramp :
    ∃ m₁ m₂, downsampleInplace ⟨⟨Region.imageData, 0⟩, 16, 32⟩ (ramp.memory 170)
        = some (⟨⟨.imageData, 0⟩, 8, 16⟩, m₁) ∧
      downsample ⟨⟨Region.imageData, 0⟩, 16, 32⟩ ⟨⟨.imagePyramid, 0⟩, 0, 0⟩ (ramp.memory 170)
        = some (⟨⟨.imagePyramid, 0⟩, 8, 16⟩, m₂) ∧
      ∃ v, m₁.read ⟨.imageData, 0⟩ ((3 : ℕ) * (8 : ℕ) + (5 : ℕ)) = some v ∧
        m₂.read ⟨.imagePyramid, 0⟩ ((3 : ℕ) * (8 : ℕ) + (5 : ℕ)) = some v := by
  have hdest : (ramp.memory 170).InRange ⟨.imagePyramid, 0⟩ ((32 >>> 1) * (16 >>> 1) : ℕ) :=
    ⟨le_rfl, by simp [Raster.memory]⟩
  obtain ⟨m₁, m₂, hrun₁, hrun₂, hpixels, -⟩ := downsampleInplace_eq_downsample
    ⟨⟨Region.imageData, 0⟩, 16, 32⟩ ⟨⟨.imagePyramid, 0⟩, 0, 0⟩ ramp (ramp.memory 170)
    rampArguments.holds rampArguments.inMemory hdest (Or.inl (by simp))
  obtain ⟨v, h₁, h₂, -⟩ := hpixels 5 3 (by decide) (by decide)
  exact ⟨m₁, m₂, hrun₁, hrun₂, v, h₁, h₂⟩

end VioFrontend
