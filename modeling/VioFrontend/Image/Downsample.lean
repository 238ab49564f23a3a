import VioFrontend.Image.Basic

/-!
# Downsampling

`downsample` halves an image for each axis: a pixel of the result is the average of a 2x2 block,
rounded down. On a destination that does not overlap the source it computes `Raster.downsample`.
-/

namespace VioFrontend

open Checked

variable {β : Type} [DecidableEq β]

/-- The pixel of the inner loop for column `i` of row `j`. -/
def downsamplePixel (source destination : Image β) (j : ℕ) (m : Memory β UInt8) (i : ℕ) :
    Option (Memory β UInt8) := do
  let a ← m.read source.data (j * 2 * source.width + i * 2)
  let b ← m.read source.data (j * 2 * source.width + i * 2 + 1)
  let c ← m.read source.data (j * 2 * source.width + source.width + i * 2)
  let d ← m.read source.data (j * 2 * source.width + source.width + i * 2 + 1)
  m.write destination.data (j * destination.width + i)
    (UInt8.ofNat ((a.toNat + b.toNat + c.toNat + d.toNat) / 4))

/-- Downsample `source` into the data of `destination`, whose size is set. -/
def downsample (source destination : Image β) (m : Memory β UInt8) :
    Option (Image β × Memory β UInt8) := do
  let destination :=
    { destination with width := source.width >>> 1, height := source.height >>> 1 }
  let m ← (List.range destination.height).foldlM (fun m j =>
    (List.range destination.width).foldlM (downsamplePixel source destination j) m) m
  return (destination, m)

/-- The 2x2 floor average of an image; an odd last row or column is dropped. -/
def Raster.downsample (img : Raster) : Raster where
  width := img.width / 2
  height := img.height / 2
  pixel x y := UInt8.ofNat (((img.pixel (2 * x) (2 * y)).toNat +
    (img.pixel (2 * x + 1) (2 * y)).toNat + (img.pixel (2 * x) (2 * y + 1)).toNat +
    (img.pixel (2 * x + 1) (2 * y + 1)).toNat) / 4)

section

variable {source destination : Image β} {img : Raster} {m : Memory β UInt8}

/-- The first `i` pixels of row `j` and all rows above it are written. -/
structure Downsampled (destination : Image β) (img : Raster) (m : Memory β UInt8) (i j : ℕ)
    (m' : Memory β UInt8) : Prop where
  frame : m.AgreesOutside destination.data (j * destination.width + i) m'
  rows : ∀ x y : ℕ, x < destination.width → y < j →
    m'.read destination.data (y * destination.width + x) = some (img.downsample.pixel x y)
  row : ∀ x : ℕ, x < i →
    m'.read destination.data (j * destination.width + x) = some (img.downsample.pixel x j)

/-- The next pixel is written. -/
lemma Downsampled.write {i j : ℕ} {m' : Memory β UInt8} (h : Downsampled destination img m i j m')
    (hdest : destination.InMemory m) (hi : i < destination.width) (hj : j < destination.height) :
    ∃ m'', m'.write destination.data (j * destination.width + i) (img.downsample.pixel i j)
        = some m'' ∧
      Downsampled destination img m (i + 1) j m'' := by
  obtain ⟨hframe, hrows, hrow⟩ := h
  have hbound := destination.address_bound hi hj
  obtain ⟨m'', hwrite, hself, hother⟩ := Memory.exists_write (hframe.inRange hdest)
    (i := j * destination.width + i) hbound.1 hbound.2 (img.downsample.pixel i j)
  have hother' : ∀ x y : ℕ, x < destination.width →
      (y : ℤ) * destination.width + x < (j : ℤ) * destination.width + i →
      m''.read destination.data (y * destination.width + x)
        = m'.read destination.data (y * destination.width + x) := fun x y _ hlt =>
    hother.read_eq (Or.inr (Or.inl (by simp only [Pointer.shift]; omega)))
  refine ⟨m'', hwrite, ?_, ?_, ?_⟩
  · refine (hframe.mono rfl le_rfl (by push_cast; omega)).trans
      (hother.mono rfl ?_ ?_) <;> simp only [Pointer.shift] <;> push_cast <;> omega
  · intro x y hx hy
    rw [hother' x y hx (by have := row_lt hx hy; omega), hrows x y hx hy]
  · intro x hx
    rcases Nat.lt_succ_iff_lt_or_eq.mp hx with hlt | rfl
    · rw [hother' x j (by omega) (by omega), hrow x hlt]
    · exact hself

omit [DecidableEq β] in
/-- A full row is done. -/
lemma Downsampled.next_row {j : ℕ} {m' : Memory β UInt8}
    (h : Downsampled destination img m destination.width j m') :
    Downsampled destination img m 0 (j + 1) m' := by
  obtain ⟨hframe, hrows, hrow⟩ := h
  refine ⟨hframe.mono rfl le_rfl (by push_cast; linarith), fun x y hx hy => ?_, by simp⟩
  rcases Nat.lt_succ_iff_lt_or_eq.mp hy with hlt | rfl
  · exact hrows x y hx hlt
  · exact hrow x hx

/-- Source and destination do not overlap. -/
def Image.DisjointFrom (source destination : Image β) : Prop :=
  source.data.block ≠ destination.data.block ∨
    source.data.offset + source.height * source.width ≤ destination.data.offset ∨
    destination.data.offset + destination.height * destination.width ≤ source.data.offset

variable (hsource : source.Holds m img) (hdest : destination.InMemory m)
  (hwidth : destination.width = source.width / 2) (hheight : destination.height = source.height / 2)
  (hdisjoint : source.DisjointFrom destination)

include hsource hdest hwidth hheight hdisjoint

lemma downsamplePixel_spec {i j : ℕ} {m' : Memory β UInt8} (hi : i < destination.width)
    (hj : j < destination.height) (h : Downsampled destination img m i j m') :
    ∃ m'', downsamplePixel source destination j m' i = some m'' ∧
      Downsampled destination img m (i + 1) j m'' := by
  have hbound := destination.address_bound hi hj
  have hholds : source.Holds m' img := hsource.of_agreesOutside h.frame (by
    rcases hdisjoint with h | h | h
    · exact Or.inl h
    · exact Or.inr (Or.inl h)
    · exact Or.inr (Or.inr (by omega)))
  have hread : ∀ (dx dy : ℕ) (a : ℤ), dx < 2 → dy < 2 →
      a = (2 * j + dy : ℕ) * source.width + (2 * i + dx : ℕ) →
      m'.read source.data a = some (img.pixel (2 * i + dx) (2 * j + dy)) := by
    rintro dx dy a hdx hdy rfl
    have h := hholds.read (2 * i + dx) (2 * j + dy) (by omega) (by omega)
    push_cast at h ⊢
    exact h
  have h00 := hread 0 0 (j * 2 * source.width + i * 2) (by omega) (by omega) (by push_cast; ring)
  have h10 := hread 1 0 (j * 2 * source.width + i * 2 + 1) (by omega) (by omega)
    (by push_cast; ring)
  have h01 := hread 0 1 (j * 2 * source.width + source.width + i * 2) (by omega) (by omega)
    (by push_cast; ring)
  have h11 := hread 1 1 (j * 2 * source.width + source.width + i * 2 + 1) (by omega) (by omega)
    (by push_cast; ring)
  obtain ⟨m'', hwrite, hnext⟩ := h.write hdest hi hj
  refine ⟨m'', ?_, hnext⟩
  have hpixel : img.downsample.pixel i j = UInt8.ofNat (((img.pixel (2 * i) (2 * j)).toNat +
      (img.pixel (2 * i + 1) (2 * j)).toNat + (img.pixel (2 * i) (2 * j + 1)).toNat +
      (img.pixel (2 * i + 1) (2 * j + 1)).toNat) / 4) := rfl
  rw [hpixel] at hwrite
  simp only [downsamplePixel, h00, h10, h01, h11, Option.bind_eq_bind, Option.bind_some]
  simpa using hwrite

/-- The downsampled image is in the destination, and nothing else has changed. -/
lemma downsample_spec :
    ∃ m', downsample source destination m = some (destination, m') ∧
      destination.Holds m' img.downsample ∧
      m.AgreesOutside destination.data (destination.height * destination.width) m' := by
  have hrow : ∀ j < destination.height, ∀ m', Downsampled destination img m 0 j m' →
      ∃ m'', (List.range destination.width).foldlM (downsamplePixel source destination j) m'
        = some m'' ∧ Downsampled destination img m 0 (j + 1) m'' := by
    intro j hj m' h
    obtain ⟨m'', hloop, hdone⟩ := Loops.exists_foldlM_range
      (fun i m' => Downsampled destination img m i j m') h
      fun i hi m' h => downsamplePixel_spec hsource hdest hwidth hheight hdisjoint hi hj h
    exact ⟨m'', hloop, hdone.next_row⟩
  obtain ⟨m', hloop, hframe, hrows, -⟩ := Loops.exists_foldlM_range
    (P := fun j m' => Downsampled destination img m 0 j m')
    ⟨Memory.AgreesOutside.refl _ _ _, by simp, by simp⟩ hrow
  refine ⟨m', ?_, ⟨?_, ?_, hrows⟩, hframe.mono rfl le_rfl (by simp)⟩
  · obtain ⟨data, width, height⟩ := destination
    obtain rfl : width = source.width >>> 1 := hwidth
    obtain rfl : height = source.height >>> 1 := hheight
    simp only [downsample, hloop, Option.bind_eq_bind, Option.bind_some]
    rfl
  · rw [hwidth, ← hsource.width]
    rfl
  · rw [hheight, ← hsource.height]
    rfl

end

end VioFrontend
