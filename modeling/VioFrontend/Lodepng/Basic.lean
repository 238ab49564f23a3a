import Mathlib.Tactic

/-!
# Colours and sizes of PNG images

The size of a pixel depends on the colour type and the depth of its channels. In a file a line of
pixels is a multiple of a byte long and is preceded by the type of its filter.
-/

namespace VioFrontend

namespace lodepng

/-- `LodePNGColorType`. -/
inductive ColorType
  | grey
  | rgb
  | palette
  | greyAlpha
  | rgba
deriving DecidableEq, Repr

/-- `LodePNGColorMode`. -/
structure ColorMode where
  colortype : ColorType
  bitdepth : ℕ

def getNumColorChannels : ColorType → ℕ
  | .grey      => 1
  | .rgb       => 3
  | .palette   => 1
  | .greyAlpha => 2
  | .rgba      => 4

/-- `lodepng_get_bpp`: the bits of a pixel. -/
def ColorMode.getBpp (color : ColorMode) : ℕ :=
  getNumColorChannels color.colortype * color.bitdepth

/-- `lodepng_get_raw_size_idat`: the bytes of `h` lines with their filter types. -/
def getRawSizeIdat (w h bpp : ℕ) : ℕ := h * (w / 8 * bpp + 1 + (w % 8 * bpp + 7) / 8)

/-- The bytes from a pixel to the next one, at least 1. -/
def bytewidth (bpp : ℕ) : ℕ := (bpp + 7) / 8

/-- The bytes of a line, not including the filter type. -/
def linebytes (w bpp : ℕ) : ℕ := getRawSizeIdat w 1 bpp - 1

lemma linebytes_eq (w bpp : ℕ) : linebytes w bpp = w / 8 * bpp + (w % 8 * bpp + 7) / 8 := by
  rw [linebytes, getRawSizeIdat]
  omega

lemma bytewidth_pos {bpp : ℕ} (hbpp : 0 < bpp) : 0 < bytewidth bpp := by
  rw [bytewidth]
  omega

/-- A line has at least one pixel. -/
lemma bytewidth_le_linebytes {w : ℕ} (bpp : ℕ) (hw : 0 < w) : bytewidth bpp ≤ linebytes w bpp := by
  rw [linebytes_eq, bytewidth]
  rcases Nat.eq_zero_or_pos (w / 8) with hzero | hpos
  · have hmod : 1 * bpp ≤ w % 8 * bpp := Nat.mul_le_mul_right _ (by omega)
    omega
  · have hdiv : 1 * bpp ≤ w / 8 * bpp := Nat.mul_le_mul_right _ hpos
    omega

end lodepng

end VioFrontend
