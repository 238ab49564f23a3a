import VioFrontend.Image.Brightness
import VioFrontend.Image.PyramidBounds
import VioFrontend.Image.Sampling

/-!
# The pyramid of a frame

A frame is copied into the image buffer of the caller, and the constructor of `ImagePyramid` builds
the levels above it in the pyramid buffer and blurs all of them. The images that the rest of the
loop reads are those that the constructor leaves in the two buffers.
-/

namespace VioFrontend

open Checked

/-! ### Images with the same pixels -/

/-- The two images have the same size and the same pixels. -/
structure Raster.SamePixels (img img' : Raster) : Prop where
  width : img'.width = img.width
  height : img'.height = img.height
  pixel : ∀ x y, img.Contains x y → img'.pixel x y = img.pixel x y

namespace Raster.SamePixels

variable {a a' b b' : Raster}

lemma contains (h : a.SamePixels a') {x y : ℤ} : a'.Contains x y ↔ a.Contains x y := by
  rw [Contains, Contains, h.width, h.height]

lemma between (h : a.SamePixels a') {lo hi : ℕ} (hbetween : a.Between lo hi) :
    a'.Between lo hi := by
  intro x y hin
  rw [h.contains] at hin
  rw [h.pixel x y hin]
  exact hbetween x y hin

/-- An offset between two images is one between images with the same pixels. -/
lemma brighterBy (h : a.SamePixels a') (h' : b.SamePixels b') {c : ℕ} (hab : a.BrighterBy c b) :
    a'.BrighterBy c b' := by
  refine ⟨?_, ?_, fun x y hin => ?_⟩
  · rw [h'.width, hab.width, h.width]
  · rw [h'.height, hab.height, h.height]
  · have hin : a.Contains x y := h.contains.mp hin
    have hin' : b.Contains x y := by
      rw [Contains, hab.width, hab.height]
      exact hin
    rw [h'.pixel x y hin', hab.pixel x y hin, h.pixel x y hin]

/-- A patch reads pixels of the image only. -/
lemma patch (h : a.SamePixels a') (hpos : 0 < a.width ∧ 0 < a.height) (x y : ℚ) :
    Patch.ofImage x y a' = Patch.ofImage x y a := by
  have hbuffer : ∀ startX startY n,
      Patch.buffer a' startX startY n = Patch.buffer a startX startY n := by
    intro startX startY n
    simp only [Patch.buffer, h.width, h.height]
    rw [h.pixel _ _ (Patch.contains_clamp hpos _ _)]
  simp only [Patch.ofImage, hbuffer]

end Raster.SamePixels

/-! ### The constructor on the buffers of the caller -/

/-- What the memory holds at an image. -/
def Image.raster {β : Type} (image : Image β) (m : Memory β UInt8) : Raster where
  width := image.width
  height := image.height
  pixel x y := (m.read image.data (y * image.width + x)).getD 0

lemma Image.Holds.samePixels {β : Type} {image : Image β} {m : Memory β UInt8} {img : Raster}
    (h : image.Holds m img) : img.SamePixels (image.raster m) := by
  refine ⟨h.width.symm, h.height.symm, fun x y hin => ?_⟩
  obtain ⟨⟨hx, hxw⟩, hy, hyh⟩ := hin
  lift x to ℕ using hx
  lift y to ℕ using hy
  have hread := h.read x y (h.width ▸ by exact_mod_cast hxw) (h.height ▸ by exact_mod_cast hyh)
  simp only [Image.raster, hread, Option.getD_some]

/-- The sizes of the buffers for the image data and for the levels above the first one. -/
structure FrameBuffers where
  imageData : ℕ
  imagePyramid : ℕ

/-- The buffers have enough space for a frame and its pyramid. -/
def FrameBuffers.Fit (buffers : FrameBuffers) (frame : Raster) : Prop :=
  frame.width * frame.height ≤ buffers.imageData ∧ frame.levelsEnd 4 ≤ buffers.imagePyramid

instance (buffers : FrameBuffers) (frame : Raster) : Decidable (buffers.Fit frame) :=
  inferInstanceAs (Decidable (_ ∧ _))

/-- The levels of a frame: the copy into the image buffer and the call of the constructor. What the
buffers held before is not read. -/
def framePyramid (buffers : FrameBuffers) (frame : Raster) : Option (ℕ → Raster) :=
  if frame.width * frame.height ≤ buffers.imageData then do
    let (images, m) ← imagePyramid ⟨⟨.imageData, 0⟩, frame.width, frame.height⟩ ⟨.imagePyramid, 0⟩
      (frame.memory buffers.imagePyramid)
    return fun L => (images L).raster m
  else none

section

variable {buffers : FrameBuffers} {frame : Raster}

/-- The levels that the constructor leaves are the blurred images of the halved frame. -/
lemma framePyramid_spec (hfit : buffers.Fit frame) (hheight : 32 ≤ frame.height) :
    ∃ levels, framePyramid buffers frame = some levels ∧
      ∀ L < 5, (frame.level L).SamePixels (levels L) := by
  obtain ⟨images, m, himages, hlevels, -⟩ :=
    imagePyramid_spec (pyramidArguments_memory frame hfit.2) hheight
  refine ⟨fun L => (images L).raster m, ?_, fun L hL => (hlevels L hL).2.samePixels⟩
  rw [framePyramid, if_pos hfit.1, himages]
  rfl

/-- Without 32 rows the constructor makes an access outside of its table. -/
lemma framePyramid_eq_none (hfit : buffers.Fit frame) (hheight : frame.height < 32) :
    framePyramid buffers frame = none := by
  rw [framePyramid, if_pos hfit.1,
    imagePyramid_eq_none (pyramidArguments_memory frame hfit.2) hheight]
  rfl

lemma Raster.level_width (frame : Raster) (L : ℕ) : (frame.level L).width = frame.width >>> L :=
  Raster.halved_width L

lemma Raster.level_height (frame : Raster) (L : ℕ) :
    (frame.level L).height = frame.height >>> L := Raster.halved_height L

/-- With 16 columns and 16 rows every level has a pixel. -/
lemma Raster.level_pos (hsize : 16 ≤ frame.width ∧ 16 ≤ frame.height) {L : ℕ} (hL : L < 5) :
    0 < (frame.level L).width ∧ 0 < (frame.level L).height := by
  rw [frame.level_width, frame.level_height, Nat.shiftRight_eq_div_pow,
    Nat.shiftRight_eq_div_pow]
  interval_cases L <;> omega

end

end VioFrontend
