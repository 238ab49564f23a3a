import VioFrontend.Library.BlockMemory
import VioFrontend.Math.Linalg

/-!
# Grayscale images and keypoints

A `Raster` is the content of an 8 bit, 1 channel grayscale image: its size and the value of
each pixel. The code holds it in a byte array in row-major order, which is `Raster.data`.

An `Image` is the struct of the code: a pointer to such an array, which the image does not own,
and the size.
-/

namespace VioFrontend

open Checked

/-- A grayscale image by its pixel values; only `0 ≤ x < width`, `0 ≤ y < height` matter. -/
structure Raster where
  width : ℕ
  height : ℕ
  pixel : ℤ → ℤ → UInt8

namespace Raster

/-- `(x, y)` is a pixel of the image. -/
def Contains (img : Raster) (x y : ℤ) : Prop :=
  (0 ≤ x ∧ x < img.width) ∧ (0 ≤ y ∧ y < img.height)

instance (img : Raster) (x y : ℤ) : Decidable (img.Contains x y) :=
  inferInstanceAs (Decidable (_ ∧ _))

/-- The `width * height` bytes of the image, row by row. -/
def data (img : Raster) : Buffer UInt8 where
  size := img.width * img.height
  cell n := some (img.pixel (n % img.width : ℕ) (n / img.width : ℕ))

lemma read_data {img : Raster} {x y : ℤ} (h : img.Contains x y) :
    img.data.read (y * img.width + x) = some (img.pixel x y) := by
  obtain ⟨⟨hx, hxw⟩, hy, hyh⟩ := h
  lift x to ℕ using hx
  lift y to ℕ using hy
  simp only [Nat.cast_lt] at hxw hyh
  have hin : y * img.width + x < img.width * img.height := by
    calc y * img.width + x < y * img.width + img.width := by omega
      _ = (y + 1) * img.width := by ring
      _ ≤ img.height * img.width := Nat.mul_le_mul_right _ hyh
      _ = img.width * img.height := Nat.mul_comm _ _
  have hcast : (y : ℤ) * img.width + x = (y * img.width + x : ℕ) := by push_cast; ring
  have hb : img.data.InBounds (y * img.width + x : ℕ) := ⟨by omega, by exact_mod_cast hin⟩
  rw [hcast, Buffer.read, if_pos hb, Int.toNat_natCast, data]
  have hmod : (y * img.width + x) % img.width = x := by
    rw [Nat.add_comm, Nat.add_mul_mod_self_right, Nat.mod_eq_of_lt hxw]
  have hdiv : (y * img.width + x) / img.width = y := by
    rw [Nat.add_comm, Nat.add_mul_div_right _ _ (by omega), Nat.div_eq_of_lt hxw, Nat.zero_add]
  simp only [hmod, hdiv]

end Raster

/-- An image whose pixels lie in memory from `data` on. -/
structure Image (β : Type) where
  data : Pointer β
  width : ℕ
  height : ℕ

namespace Image

variable {β : Type}

/-- The pixels lie inside their array. -/
def InMemory (image : Image β) (m : Memory β UInt8) : Prop :=
  m.InRange image.data (image.height * image.width)

/-- The memory holds the pixels of `img`. -/
structure Holds (image : Image β) (m : Memory β UInt8) (img : Raster) : Prop where
  width : img.width = image.width
  height : img.height = image.height
  read : ∀ x y : ℕ, x < image.width → y < image.height →
    m.read image.data (y * image.width + x) = some (img.pixel x y)

/-- A pixel address lies inside the pixels of its image. -/
lemma address_bound (image : Image β) {x y : ℕ} (hx : x < image.width) (hy : y < image.height) :
    0 ≤ (y : ℤ) * image.width + x ∧
      (y : ℤ) * image.width + x < (image.height : ℤ) * image.width :=
  ⟨by positivity, row_lt hx hy⟩

/-- Writing elsewhere does not change the image. -/
lemma Holds.of_agreesOutside {image : Image β} {m m' : Memory β UInt8} {img : Raster}
    {p : Pointer β} {n : ℤ} (h : image.Holds m img) (hm : m.AgreesOutside p n m')
    (hdisjoint : image.data.block ≠ p.block ∨
      image.data.offset + image.height * image.width ≤ p.offset ∨
      p.offset + n ≤ image.data.offset) : image.Holds m' img := by
  refine ⟨h.width, h.height, fun x y hx hy => ?_⟩
  have hb := image.address_bound hx hy
  rw [hm.read_eq (hdisjoint.imp id (by omega)), h.read x y hx hy]

end Image

/-- A feature point; a stale one has left the image. -/
structure KeyPoint where
  point : Vec2
  stale : Bool
  deriving DecidableEq

end VioFrontend
