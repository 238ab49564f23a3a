import VioFrontend.Image.ImagePyramid

/-!
# The smallest image with a pyramid

The table of row pointers has an entry for each row, and `blurInplace` reads the entries 0 and 1
of it before it looks at the height. The coarsest level has at least two rows only when the source
has 32, so a source with 16 to 31 rows has all its levels and makes an access outside the table.
-/

namespace VioFrontend

open Checked

variable {β : Type} [DecidableEq β] {source : Image β} {pyramidBuffer : Pointer β} {img : Raster}
  {m : Memory β UInt8}

/-- Entry 1 of the table is outside it. -/
lemma blurInplace_eq_none {image : Image β} (h : image.height < 2) :
    blurInplace image m = none := by
  obtain ⟨table, hfill, hsize, -⟩ := Buffer.fill_spec (b := Buffer.blank image.height)
    (f := fun i => ((i % 3 : ℕ) : ℤ) * image.width) (n := image.height) (by simp)
  have hentry : table.read 1 = none := by
    refine if_neg ?_
    rintro ⟨-, hlt⟩
    simp only [hsize, Buffer.size_blank] at hlt
    omega
  simp only [blurInplace, blurInplaceOver, hfill, hentry, Option.bind_eq_bind, Option.bind_some,
    Option.bind_none, Option.bind_fun_none]

/-- Without 32 rows the blur of the coarsest level fails. -/
lemma imagePyramid_eq_none (hargs : PyramidArguments source pyramidBuffer img m)
    (hheight : source.height < 32) : imagePyramid source pyramidBuffer m = none := by
  obtain ⟨s, hbuild, hbuilt⟩ := buildLevels_spec hargs
  have hcoarsest : ∀ m', blurInplace (s.images 4) m' = none := by
    intro m'
    rw [hbuilt.images 4 le_rfl]
    apply blurInplace_eq_none
    simp only [levelImage, Raster.halved_height, Nat.shiftRight_eq_div_pow, hargs.holds.height]
    omega
  have hblur : (List.range pyramidLevels).foldlM (fun m i => blurInplace (s.images i) m) s.memory
      = none := by
    rw [show pyramidLevels = 4 + 1 from rfl, List.range_succ, List.foldlM_append]
    simp [hcoarsest]
  simp only [imagePyramid, hbuild, hblur, Option.bind_eq_bind, Option.bind_some, Option.bind_none]

lemma imagePyramid_isSome (hargs : PyramidArguments source pyramidBuffer img m)
    (hheight : 32 ≤ source.height) : (imagePyramid source pyramidBuffer m).isSome = true := by
  obtain ⟨s, hbuild, hbuilt⟩ := buildLevels_spec hargs
  obtain ⟨m', hblur, -⟩ := blurLevels_spec hargs (hargs.holds.height ▸ hheight) hbuilt
  simp only [imagePyramid, hbuild, hblur, Option.bind_eq_bind, Option.bind_some]
  rfl

/-- All accesses of the constructor are inside their arrays exactly when the source has at least 32
rows. -/
theorem imagePyramid_inBounds_iff (source : Image β) (pyramidBuffer : Pointer β) (img : Raster)
    (m : Memory β UInt8) (hargs : PyramidArguments source pyramidBuffer img m) :
    (imagePyramid source pyramidBuffer m).isSome = true ↔ 32 ≤ source.height := by
  constructor
  · intro hsome
    by_contra hheight
    rw [imagePyramid_eq_none hargs (not_le.mp hheight)] at hsome
    cases hsome
  · exact imagePyramid_isSome hargs

theorem imagePyramid_inBounds_iff_ramp :
    (imagePyramid ⟨⟨Region.imageData, 0⟩, 16, 32⟩ ⟨.imagePyramid, 0⟩ (ramp.memory 170)).isSome
      = true ↔ 32 ≤ 32 :=
  imagePyramid_inBounds_iff _ _ ramp _ rampArguments

def smallRaster : Raster := ⟨16, 16, fun _ _ => 0⟩

/-- A 16x16 image with a pyramid buffer of 85 bytes, which all levels fit into. The table for the
coarsest level has one entry. -/
theorem imagePyramid_smallRaster :
    smallRaster.levelsEnd 4 = 85 ∧
      (smallRaster.halved 4).width = 1 ∧ (smallRaster.halved 4).height = 1 ∧
      ¬ (Buffer.blank 1 : Buffer ℤ).InBounds 1 ∧
      imagePyramid ⟨⟨Region.imageData, 0⟩, 16, 16⟩ ⟨.imagePyramid, 0⟩ (smallRaster.memory 85)
        = none := by
  refine ⟨by decide, by decide, by decide, by decide, ?_⟩
  exact imagePyramid_eq_none (pyramidArguments_memory smallRaster (by decide)) (by decide)

end VioFrontend
