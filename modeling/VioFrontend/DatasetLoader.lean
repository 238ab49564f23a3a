import VioFrontend.Image.Basic
import VioFrontend.Util.Numerals

/-!
# The dataset loader

The images of a dataset are files with numbers as names. `retrieveImage` loads the file with a
given number, or the next one. What the card holds under a name is a parameter: `none` is a file
that cannot be opened, read or decoded, or that there is no memory for.
-/

namespace VioFrontend

/-- The images by the names of their files. -/
abbrev Dataset := List UInt8 → Option Raster

namespace datasetLoader

/-- The index after `initialise`. -/
def initialise : ℕ := 1

/-- `retrieve_image`: the image, and the index of the next file. -/
def retrieveImage (dataset : Dataset) (index : ℤ) (currentFileIndex : ℕ) : Option Raster × ℕ :=
  if index = -1 then
    (dataset (CString.decimal currentFileIndex ++ CString.pngExtension),
      (currentFileIndex + 1) % 2 ^ 32)
  else
    (dataset (CString.formatInt index ++ CString.pngExtension), ((index + 1) % 2 ^ 32).toNat)

/-- The file name of an image. -/
def fileName (index : ℕ) : List UInt8 := CString.decimal index ++ CString.pngExtension

lemma retrieveImage_next (dataset : Dataset) {k : ℕ} (hk : k + 1 < 2 ^ 32) :
    retrieveImage dataset (-1) k = (dataset (fileName k), k + 1) := by
  rw [retrieveImage, if_pos rfl, Nat.mod_eq_of_lt hk, fileName]

lemma retrieveImage_index (dataset : Dataset) (index currentFileIndex : ℕ) :
    (retrieveImage dataset index currentFileIndex).1 = dataset (fileName index) := by
  have hindex : (index : ℤ) ≠ -1 := by omega
  have hformat : CString.formatInt index = CString.decimal index := by
    rw [CString.formatInt, if_neg (by omega), Int.natAbs_natCast]
  rw [retrieveImage, if_neg hindex, hformat, fileName]

end datasetLoader

end VioFrontend
