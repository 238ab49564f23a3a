import VioFrontend.Image.ImagePyramid

/-!
# The result of blurring in place

Blurring in place reads only original pixels: the code has the same result when a pixel cannot be
read any more once it is blurred. Truncating the shifted values loses less than five grey levels.
-/

namespace VioFrontend

open Checked

variable {β : Type} [DecidableEq β]

/-! ### Pixels that cannot be read any more -/

variable {data : Pointer β} {m m' : Memory β UInt8} {l : Ledger β UInt8}
  {buffer buffer' : Buffer UInt8} {width : ℕ}

open Access (unread)

lemma copyRowOver_unread {i start : ℤ} {n : ℕ} (hl : Access.Ledger.Below l (data.offset + i))
    (h : copyRow l.memory data i n buffer start = some buffer') :
    copyRowOver unread l data i n buffer start = some buffer' := by
  obtain ⟨t, ht, rfl⟩ := Loops.exists_foldlM_range_of_sim (fun _ b b' => b = b') h rfl
    (g := fun buffer (x : ℕ) => do
      let v ← unread.read l data (i + x)
      buffer.write (start + x) v) (by
      rintro x - b _ b' rfl hb
      refine ⟨b', ?_, rfl⟩
      rw [Access.unread_read hl (by omega)]
      exact hb)
  exact ht

lemma blurPixelOver_unread {n row0 row1 row2 : ℤ} {x y : ℕ} (hl : Access.Ledger.Below l n)
    (hx : data.offset + (y * width + x) < n)
    (h : blurPixel data width buffer row0 row1 row2 y l.memory x = some m') :
    ∃ written, blurPixelOver unread data width buffer row0 row1 row2 y l x = some ⟨m', written⟩ ∧
      Access.Ledger.Below ⟨m', written⟩ n := by
  obtain ⟨s0, h0, h⟩ := Option.bind_eq_some_iff.mp h
  obtain ⟨s1, h1, h⟩ := Option.bind_eq_some_iff.mp h
  obtain ⟨s2, h2, h⟩ := Option.bind_eq_some_iff.mp h
  obtain ⟨written, hwrite, hbelow⟩ := Access.unread_write hl hx h
  refine ⟨written, ?_, hbelow⟩
  simp only [blurPixelOver, h0, h1, h2, Option.bind_eq_bind, Option.bind_some]
  exact hwrite

/-- When row `y` is blurred, the rows above it were written and the row below it is read. -/
lemma blurRowOver_unread {rowBufferPtr : Buffer ℤ} {y : ℕ}
    (hl : Access.Ledger.Below l (data.offset + y * width))
    (h : blurRow data width rowBufferPtr y (l.memory, buffer) = some (m', buffer')) :
    ∃ written, blurRowOver unread data width rowBufferPtr y (l, buffer)
        = some (⟨m', written⟩, buffer') ∧
      Access.Ledger.Below ⟨m', written⟩ (data.offset + (y + 1 : ℕ) * width) := by
  have hrow : (data.offset + y * width : ℤ) ≤ data.offset + (y + 1 : ℕ) * width := by
    push_cast
    linarith
  obtain ⟨row2, hrow2, h⟩ := Option.bind_eq_some_iff.mp h
  obtain ⟨b, hcopy, h⟩ := Option.bind_eq_some_iff.mp h
  obtain ⟨row0, hrow0, h⟩ := Option.bind_eq_some_iff.mp h
  obtain ⟨row1, hrow1, h⟩ := Option.bind_eq_some_iff.mp h
  obtain ⟨m₁, hloop, h⟩ := Option.bind_eq_some_iff.mp h
  obtain ⟨rfl, rfl⟩ := Prod.mk.inj (Option.some.inj h)
  obtain ⟨⟨memory, written⟩, hloop', rfl, hbelow⟩ := Loops.exists_foldlM_range_of_sim
    (fun _ m (l : Ledger β UInt8) => l.memory = m ∧
      Access.Ledger.Below l (data.offset + (y + 1 : ℕ) * width)) hloop ⟨rfl, hl.mono hrow⟩
    (g := fun l k => blurPixelOver unread data width b row0 row1 row2 y l (k + 1)) (by
      rintro k hk _ l m'' ⟨rfl, hl⟩ hpixel
      obtain ⟨written, hpixel', hbelow⟩ := blurPixelOver_unread hl
        (by push_cast; linarith [show (k : ℤ) + 1 < width by omega]) hpixel
      exact ⟨_, hpixel', rfl, hbelow⟩)
  refine ⟨written, ?_, hbelow⟩
  have hcopy' := copyRowOver_unread (hl.mono hrow) hcopy
  simp only [blurRowOver, hrow2, hcopy', hrow0, hrow1, hloop', Option.bind_eq_bind,
    Option.bind_some]
  rfl

/-- The call on memory whose blurred pixels cannot be read any more. -/
lemma blurInplaceOver_unread {image : Image β} (h : blurInplace image m = some m') :
    ∃ written, blurInplaceOver unread image ⟨m, []⟩ = some ⟨m', written⟩ := by
  obtain ⟨table, htable, h⟩ := Option.bind_eq_some_iff.mp h
  obtain ⟨row0, hrow0, h⟩ := Option.bind_eq_some_iff.mp h
  obtain ⟨b, hcopy0, h⟩ := Option.bind_eq_some_iff.mp h
  obtain ⟨row1, hrow1, h⟩ := Option.bind_eq_some_iff.mp h
  obtain ⟨b', hcopy1, h⟩ := Option.bind_eq_some_iff.mp h
  obtain ⟨⟨m₁, b₁⟩, hloop, h⟩ := Option.bind_eq_some_iff.mp h
  obtain rfl : m₁ = m' := Option.some.inj h
  have hnone : ∀ n, Access.Ledger.Below (⟨m, []⟩ : Ledger β UInt8) n := fun n a ha => by
    cases ha
  obtain ⟨⟨⟨memory, written⟩, b₂⟩, hloop', ⟨⟩, -⟩ := Loops.exists_foldlM_range_of_sim
    (fun n s (t : Ledger β UInt8 × Buffer UInt8) => (t.1.memory, t.2) = s ∧
      Access.Ledger.Below t.1 (image.data.offset + (n + 1 : ℕ) * image.width)) hloop
    (t := ((⟨m, []⟩ : Ledger β UInt8), b')) ⟨rfl, hnone _⟩
    (g := fun s n => blurRowOver unread image.data image.width table (n + 1) s) (by
      rintro n hn _ ⟨l, b⟩ ⟨m'', b''⟩ ⟨rfl, hl⟩ hrow
      obtain ⟨written, hrow', hbelow⟩ := blurRowOver_unread hl hrow
      exact ⟨_, hrow', rfl, hbelow⟩)
  refine ⟨written, ?_⟩
  have hcopy0' := copyRowOver_unread (hnone _) hcopy0
  have hcopy1' := copyRowOver_unread (hnone _) hcopy1
  simp only [blurInplaceOver, htable, hrow0, hcopy0', hrow1, hcopy1', hloop', Option.bind_eq_bind,
    Option.bind_some]
  rfl

/-! ### The pixels -/

/-- A pixel that the kernel fits around. -/
def Image.Interior (image : Image β) (x y : ℕ) : Prop :=
  (1 ≤ x ∧ x + 1 < image.width) ∧ (1 ≤ y ∧ y + 1 < image.height)

instance (image : Image β) (x y : ℕ) : Decidable (image.Interior x y) :=
  inferInstanceAs (Decidable (_ ∧ _))

/-- The vertical convolution of the horizontal ones. -/
def Raster.vertical (img : Raster) (x y : ℤ) : ℕ :=
  kernelSum (img.horizontal x (y - 1)) (img.horizontal x y) (img.horizontal x (y + 1))

lemma Raster.vertical_le (img : Raster) (x y : ℤ) : img.vertical x y ≤ 253 :=
  kernelSum_le ((img.horizontal_le _ _).trans (by omega)) ((img.horizontal_le _ _).trans (by omega))
    ((img.horizontal_le _ _).trans (by omega))

section

variable {image : Image β} {img : Raster} {x y : ℕ}

omit [DecidableEq β] in
lemma blur_pixel_interior (hholds : image.Holds m img) (h : image.Interior x y) :
    (img.blur.pixel x y).toNat = img.vertical x y := by
  have hinside : (1 ≤ (x : ℤ) ∧ (x : ℤ) + 1 < img.width) ∧
      (1 ≤ (y : ℤ) ∧ (y : ℤ) + 1 < img.height) := by
    have hwidth := hholds.width
    have hheight := hholds.height
    obtain ⟨hx, hy⟩ := h
    omega
  have hsize : img.vertical x y < UInt8.size := (img.vertical_le x y).trans_lt (by decide)
  simp only [Raster.blur]
  rw [if_pos hinside]
  exact UInt8.toNat_ofNat_of_lt' hsize

omit [DecidableEq β] in
lemma blur_pixel_border (hholds : image.Holds m img) (h : ¬ image.Interior x y) :
    img.blur.pixel x y = img.pixel x y := by
  simp only [Raster.blur]
  refine if_neg ?_
  rw [hholds.width, hholds.height]
  exact fun hinside => h ⟨by omega, by omega⟩

end

/-- Interior pixels get the value of the kernel on the original pixels, all others keep theirs; no
blurred pixel is read and no sum exceeds a byte. -/
theorem blurInplace_outOfPlace (image : Image β) (img : Raster) (m : Memory β UInt8)
    (himage : image.InMemory m) (hholds : image.Holds m img) (hheight : 2 ≤ image.height) :
    ∃ m', blurInplace image m = some m' ∧
      (∀ x y : ℕ, x < image.width → y < image.height →
        ∃ p, m'.read image.data (y * image.width + x) = some p ∧
          if image.Interior x y then p.toNat = img.vertical x y else p = img.pixel x y) ∧
      m.AgreesOutside image.data (image.height * image.width) m' ∧
      (∃ written, blurInplaceOver unread image ⟨m, []⟩ = some ⟨m', written⟩) ∧
      ∀ x y, img.horizontal x y ≤ 255 ∧ img.vertical x y ≤ 255 := by
  obtain ⟨m', hrun, hblurred, hframe⟩ := blurInplace_spec himage hholds hheight
  refine ⟨m', hrun, fun x y hx hy => ⟨_, hblurred.read x y hx hy, ?_⟩, hframe,
    blurInplaceOver_unread hrun, fun x y => ?_⟩
  · split_ifs with h
    · exact blur_pixel_interior hholds h
    · exact blur_pixel_border hholds h
  · exact ⟨(img.horizontal_le x y).trans (by omega), (img.vertical_le x y).trans (by omega)⟩

theorem blurInplace_outOfPlace_ramp :
    ∃ m', blurInplace ⟨⟨Region.imageData, 0⟩, 16, 32⟩ (ramp.memory 170) = some m' ∧
      ∃ p, m'.read ⟨.imageData, 0⟩ ((3 : ℕ) * (16 : ℕ) + (5 : ℕ)) = some p ∧ p.toNat = 10 := by
  obtain ⟨m', hrun, hpixels, -⟩ := blurInplace_outOfPlace ⟨⟨Region.imageData, 0⟩, 16, 32⟩ ramp
    (ramp.memory 170) rampArguments.inMemory rampArguments.holds (by decide)
  obtain ⟨p, hp, hvalue⟩ := hpixels 5 3 (by decide) (by decide)
  rw [if_pos (by decide)] at hvalue
  exact ⟨m', hrun, p, hp, hvalue.trans (by decide +kernel)⟩

/-! ### The accuracy -/

/-- Sixteen times the exact Gaussian value. -/
def Raster.gaussianSum (img : Raster) (x y : ℤ) : ℕ :=
  1 * ((img.pixel (x - 1) (y - 1)).toNat + (img.pixel (x + 1) (y - 1)).toNat +
    (img.pixel (x - 1) (y + 1)).toNat + (img.pixel (x + 1) (y + 1)).toNat) +
  2 * ((img.pixel x (y - 1)).toNat + (img.pixel (x - 1) y).toNat +
    (img.pixel (x + 1) y).toNat + (img.pixel x (y + 1)).toNat) +
  4 * (img.pixel x y).toNat

/-- The shifts lose less than two in each direction. -/
lemma kernelSum_accuracy (a b c : ℕ) :
    4 * kernelSum a b c ≤ a + 2 * b + c ∧ a + 2 * b + c ≤ 4 * kernelSum a b c + 8 := by
  simp only [kernelSum, Nat.shiftRight_eq_div_pow]
  omega

/-- The losses of the rows count with the weights of the vertical convolution. -/
lemma Raster.vertical_accuracy (img : Raster) (x y : ℤ) :
    16 * img.vertical x y ≤ img.gaussianSum x y ∧
      img.gaussianSum x y ≤ 16 * img.vertical x y + 64 := by
  have habove := kernelSum_accuracy (img.pixel (x - 1) (y - 1)).toNat (img.pixel x (y - 1)).toNat
    (img.pixel (x + 1) (y - 1)).toNat
  have hrow := kernelSum_accuracy (img.pixel (x - 1) y).toNat (img.pixel x y).toNat
    (img.pixel (x + 1) y).toNat
  have hbelow := kernelSum_accuracy (img.pixel (x - 1) (y + 1)).toNat (img.pixel x (y + 1)).toNat
    (img.pixel (x + 1) (y + 1)).toNat
  have hvertical := kernelSum_accuracy (img.horizontal x (y - 1)) (img.horizontal x y)
    (img.horizontal x (y + 1))
  simp only [gaussianSum, vertical, horizontal] at *
  omega

/-- An interior pixel is blurred to at most the exact Gaussian value and to at most four grey
levels less. -/
theorem blurInplace_accuracy (image : Image β) (img : Raster) (m : Memory β UInt8)
    (himage : image.InMemory m) (hholds : image.Holds m img) :
    ∀ x y : ℕ, image.Interior x y →
      ∃ m' p, blurInplace image m = some m' ∧
        m'.read image.data (y * image.width + x) = some p ∧
        (img.gaussianSum x y : ℤ) - 64 ≤ 16 * p.toNat ∧ 16 * p.toNat ≤ img.gaussianSum x y ∧
        (∀ j : ℤ, img.horizontal x j ≤ 255) ∧ img.vertical x y ≤ 255 := by
  intro x y h
  have hsize : x < image.width ∧ y < image.height ∧ 2 ≤ image.height := by
    obtain ⟨hx, hy⟩ := h
    omega
  obtain ⟨hx, hy, hheight⟩ := hsize
  obtain ⟨m', hrun, hblurred, -⟩ := blurInplace_spec himage hholds hheight
  obtain ⟨hupper, hlower⟩ := img.vertical_accuracy x y
  refine ⟨m', _, hrun, hblurred.read x y hx hy, ?_, ?_, fun j => ?_, ?_⟩
  · rw [blur_pixel_interior hholds h]
    omega
  · rw [blur_pixel_interior hholds h]
    exact hupper
  · exact (img.horizontal_le x j).trans (by omega)
  · exact (img.vertical_le x y).trans (by omega)

theorem blurInplace_accuracy_ramp :
    ∃ m' p, blurInplace ⟨⟨Region.imageData, 0⟩, 16, 32⟩ (ramp.memory 170) = some m' ∧
      m'.read ⟨.imageData, 0⟩ ((3 : ℕ) * (16 : ℕ) + (5 : ℕ)) = some p ∧
      112 ≤ 16 * p.toNat ∧ 16 * p.toNat ≤ 176 := by
  obtain ⟨m', p, hrun, hp, hlower, hupper, -⟩ :=
    blurInplace_accuracy ⟨⟨Region.imageData, 0⟩, 16, 32⟩ ramp (ramp.memory 170)
      rampArguments.inMemory rampArguments.holds 5 3 (by decide)
  have hsum : ramp.gaussianSum (5 : ℕ) (3 : ℕ) = 176 := by decide +kernel
  rw [hsum] at hlower hupper
  exact ⟨m', p, hrun, hp, by omega, hupper⟩

end VioFrontend
