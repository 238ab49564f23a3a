import VioFrontend.Image.Downsample
import VioFrontend.Image.Blur

/-!
# The image pyramid

The constructor of `ImagePyramid` first halves the source image four times, one level from the
level below, and then blurs every level in place. `Raster.level` is what the levels are meant to
be: the blurred image of a halved, not blurred source.
-/

namespace VioFrontend

open Checked

variable {β : Type} [DecidableEq β]

def pyramidLevels : ℕ := 5

/-- The images so far, the offset of the next one in the pyramid buffer, and the memory. -/
structure Levels (β : Type) where
  images : ℕ → Image β
  offset : ℕ
  memory : Memory β UInt8

/-- The iteration of the first loop for level `i`. -/
def addLevel (pyramidBuffer : Pointer β) (s : Levels β) (i : ℕ) : Option (Levels β) := do
  let (image, m) ← downsample (s.images (i - 1)) ⟨pyramidBuffer.shift s.offset, 0, 0⟩ s.memory
  return ⟨Function.update s.images i image, s.offset + image.width * image.height, m⟩

/-- The images of the pyramid and the memory that they lie in. The first loop starts at level 1;
an entry of `images` is assigned before it is read. -/
def imagePyramid (source : Image β) (pyramidBuffer : Pointer β) (m : Memory β UInt8) :
    Option ((ℕ → Image β) × Memory β UInt8) := do
  let s ← (List.range (pyramidLevels - 1)).foldlM (fun s i => addLevel pyramidBuffer s (i + 1))
    ⟨fun _ => source, 0, m⟩
  let m ← (List.range pyramidLevels).foldlM (fun m i => blurInplace (s.images i) m) s.memory
  return (s.images, m)

namespace Raster

/-- The image after `i` times downsampling. -/
def halved (img : Raster) : ℕ → Raster
  | 0 => img
  | i + 1 => (img.halved i).downsample

/-- Level `i` of the pyramid of an image. -/
def level (img : Raster) (i : ℕ) : Raster := (img.halved i).blur

/-- The size of the levels `1, ..., n` together. -/
def levelsEnd (img : Raster) : ℕ → ℕ
  | 0 => 0
  | n + 1 => img.levelsEnd n + (img.halved (n + 1)).width * (img.halved (n + 1)).height

variable {img : Raster}

lemma halved_width (i : ℕ) : (img.halved i).width = img.width >>> i := by
  induction i with
  | zero => rfl
  | succ i ih => rw [halved, downsample, ih, Nat.shiftRight_succ]

lemma halved_height (i : ℕ) : (img.halved i).height = img.height >>> i := by
  induction i with
  | zero => rfl
  | succ i ih => rw [halved, downsample, ih, Nat.shiftRight_succ]

lemma levelsEnd_mono {i j : ℕ} (h : i ≤ j) : img.levelsEnd i ≤ img.levelsEnd j := by
  induction h with
  | refl => rfl
  | step _ ih => exact ih.trans (Nat.le_add_right _ _)

/-- Every level has at most a quarter of the pixels of the one below. -/
lemma levelsEnd_le (n : ℕ) :
    3 * img.levelsEnd n + (img.halved n).width * (img.halved n).height
      ≤ img.width * img.height := by
  induction n with
  | zero => simp [levelsEnd, halved]
  | succ n ih =>
    have hquarter : 4 * ((img.halved (n + 1)).width * (img.halved (n + 1)).height)
        ≤ (img.halved n).width * (img.halved n).height := by
      calc 4 * ((img.halved (n + 1)).width * (img.halved (n + 1)).height)
          = ((img.halved n).width / 2 * 2) * ((img.halved n).height / 2 * 2) := by
            simp only [halved, downsample]
            ring
        _ ≤ _ := Nat.mul_le_mul (Nat.div_mul_le_self _ _) (Nat.div_mul_le_self _ _)
    rw [levelsEnd]
    omega

end Raster

/-! ### The constructor -/

/-- The image of level `i`. -/
def levelImage (source : Image β) (pyramidBuffer : Pointer β) (img : Raster) (i : ℕ) : Image β where
  data := if i = 0 then source.data else pyramidBuffer.shift (img.levelsEnd (i - 1))
  width := (img.halved i).width
  height := (img.halved i).height

/-- Source and pyramid buffer of a constructor call. -/
structure PyramidArguments (source : Image β) (pyramidBuffer : Pointer β) (img : Raster)
    (m : Memory β UInt8) : Prop where
  holds : source.Holds m img
  inMemory : source.InMemory m
  buffer : m.InRange pyramidBuffer (img.levelsEnd 4)
  disjoint : source.data.block ≠ pyramidBuffer.block ∨
    source.data.offset + source.height * source.width ≤ pyramidBuffer.offset ∨
    pyramidBuffer.offset + img.levelsEnd 4 ≤ source.data.offset

variable {source : Image β} {pyramidBuffer : Pointer β} {img : Raster} {m : Memory β UInt8}

omit [DecidableEq β] in
/-- A level above the first one ends where the next one starts. -/
lemma levelImage_size (source : Image β) (pyramidBuffer : Pointer β) (img : Raster) (i : ℕ) :
    ((levelImage source pyramidBuffer img (i + 1)).height : ℤ)
        * (levelImage source pyramidBuffer img (i + 1)).width
      = img.levelsEnd (i + 1) - img.levelsEnd i := by
  simp only [levelImage, Raster.levelsEnd]
  push_cast
  ring

omit [DecidableEq β] in
lemma levelImage_disjoint (hargs : PyramidArguments source pyramidBuffer img m) {i j : ℕ}
    (hij : i < j) (hj : j ≤ 4) :
    (levelImage source pyramidBuffer img i).DisjointFrom
      (levelImage source pyramidBuffer img j) := by
  obtain ⟨j, rfl⟩ := Nat.exists_eq_add_of_le' (show 1 ≤ j by omega)
  have hsize := levelImage_size source pyramidBuffer img j
  have hend := img.levelsEnd_mono hj
  rcases Nat.eq_zero_or_pos i with rfl | hi
  · obtain ⟨⟨hwidth, hheight, -⟩, -, -, hdisjoint⟩ := hargs
    simp only [Image.DisjointFrom, hsize]
    simp only [levelImage, Pointer.shift, Raster.halved, if_pos, Nat.succ_ne_zero, if_false,
      Nat.add_sub_cancel, hwidth, hheight]
    refine hdisjoint.imp id fun h => h.imp (fun h => ?_) fun h => ?_ <;> omega
  · obtain ⟨i, rfl⟩ := Nat.exists_eq_add_of_le' hi
    have hsize' := levelImage_size source pyramidBuffer img i
    have hmono := img.levelsEnd_mono (show i + 1 ≤ j by omega)
    simp only [Image.DisjointFrom, hsize, hsize']
    simp only [levelImage, Pointer.shift, Nat.succ_ne_zero, if_false, Nat.add_sub_cancel]
    omega

omit [DecidableEq β] in
lemma levelImage_inMemory (hargs : PyramidArguments source pyramidBuffer img m) {i : ℕ}
    (hi : i ≤ 4) : (levelImage source pyramidBuffer img i).InMemory m := by
  cases i with
  | zero =>
    have h := hargs.inMemory
    simp only [Image.InMemory, ← hargs.holds.width, ← hargs.holds.height] at h
    exact h
  | succ i =>
    have hmono := img.levelsEnd_mono hi
    obtain ⟨hlow, hhigh⟩ := hargs.buffer
    rw [Image.InMemory, levelImage_size]
    simp only [Memory.InRange, levelImage, Pointer.shift, Nat.succ_ne_zero, if_false,
      Nat.add_sub_cancel]
    omega

/-- The levels up to `n` are built, and not yet blurred. -/
structure Built (source : Image β) (pyramidBuffer : Pointer β) (img : Raster) (m : Memory β UInt8)
    (n : ℕ) (s : Levels β) : Prop where
  images : ∀ i ≤ n, s.images i = levelImage source pyramidBuffer img i
  offset : s.offset = img.levelsEnd n
  holds : ∀ i ≤ n, (levelImage source pyramidBuffer img i).Holds s.memory (img.halved i)
  size : ∀ b, (s.memory.array b).size = (m.array b).size

omit [DecidableEq β] in
lemma inMemory_of_size {image : Image β} {m m' : Memory β UInt8}
    (hsize : ∀ b, (m'.array b).size = (m.array b).size) (h : image.InMemory m) :
    image.InMemory m' := by
  rw [Image.InMemory, Memory.InRange, hsize]
  exact h

lemma addLevel_spec (hargs : PyramidArguments source pyramidBuffer img m) {n : ℕ} (hn : n < 4)
    {s : Levels β} (h : Built source pyramidBuffer img m n s) :
    ∃ s', addLevel pyramidBuffer s (n + 1) = some s' ∧
      Built source pyramidBuffer img m (n + 1) s' := by
  obtain ⟨himages, hoffset, hholds, hsize⟩ := h
  have hdest : (levelImage source pyramidBuffer img (n + 1)).InMemory s.memory :=
    inMemory_of_size hsize (levelImage_inMemory hargs (by omega))
  obtain ⟨m', hdown, hnew, hframe⟩ := downsample_spec (hholds n le_rfl) hdest rfl rfl
    (levelImage_disjoint hargs (by omega) (by omega))
  have hcall : downsample (levelImage source pyramidBuffer img n)
      ⟨pyramidBuffer.shift (img.levelsEnd n), 0, 0⟩ s.memory
        = some (levelImage source pyramidBuffer img (n + 1), m') := hdown
  refine ⟨⟨Function.update s.images (n + 1) (levelImage source pyramidBuffer img (n + 1)),
    img.levelsEnd (n + 1), m'⟩, ?_, ?_, rfl, ?_, fun b => (hframe.size b).trans (hsize b)⟩
  · simp only [addLevel, Nat.add_sub_cancel, himages n le_rfl, hoffset, hcall, Option.bind_eq_bind,
      Option.bind_some]
    rfl
  · intro i hi
    by_cases hlast : i = n + 1
    · subst hlast
      simp only [Function.update_self]
    · simp only [Function.update_of_ne hlast]
      exact himages i (by omega)
  · intro i hi
    by_cases hlast : i = n + 1
    · subst hlast
      exact hnew
    · exact (hholds i (by omega)).of_agreesOutside hframe
        (levelImage_disjoint hargs (by omega) (by omega))

/-- The first loop builds all levels. -/
lemma buildLevels_spec (hargs : PyramidArguments source pyramidBuffer img m) :
    ∃ s, (List.range (pyramidLevels - 1)).foldlM (fun s i => addLevel pyramidBuffer s (i + 1))
        ⟨fun _ => source, 0, m⟩ = some s ∧
      Built source pyramidBuffer img m 4 s := by
  refine Loops.exists_foldlM_range (n := 4) (fun n s => Built source pyramidBuffer img m n s) ?_
    fun n hn s h => addLevel_spec hargs hn h
  refine ⟨fun i hi => ?_, rfl, fun i hi => ?_, fun _ => rfl⟩
  all_goals
    obtain rfl : i = 0 := Nat.le_zero.mp hi
  · simp only [levelImage, if_pos, Raster.halved, hargs.holds.width, hargs.holds.height]
  · exact ⟨rfl, rfl, fun x y hx hy => by
      have h := hargs.holds.read x y (hargs.holds.width ▸ hx) (hargs.holds.height ▸ hy)
      rwa [← hargs.holds.width] at h⟩

/-- The blur loop: the levels below `n` are blurred. -/
lemma blurLevels_spec (hargs : PyramidArguments source pyramidBuffer img m)
    (hheight : 32 ≤ img.height) {s : Levels β} (h : Built source pyramidBuffer img m 4 s) :
    ∃ m', (List.range pyramidLevels).foldlM (fun m i => blurInplace (s.images i) m) s.memory
        = some m' ∧
      ∀ i ≤ 4, (levelImage source pyramidBuffer img i).Holds m' (img.level i) := by
  obtain ⟨himages, -, hholds, hsize⟩ := h
  obtain ⟨m', hloop, -, hblurred⟩ := Loops.exists_foldlM_range (n := pyramidLevels)
    (f := fun m i => blurInplace (s.images i) m) (s := s.memory)
    (fun n (m' : Memory β UInt8) => (∀ b, (m'.array b).size = (m.array b).size) ∧
      ∀ i ≤ 4, (levelImage source pyramidBuffer img i).Holds m'
        (if i < n then img.level i else img.halved i))
    ⟨hsize, fun i hi => by simpa using hholds i hi⟩ (by
      rintro n hn m' ⟨hsize', hlevels⟩
      have hn : n ≤ 4 := Nat.lt_succ_iff.mp hn
      have hthis := hlevels n hn
      rw [if_neg (lt_irrefl n)] at hthis
      have hrows : 2 ≤ (levelImage source pyramidBuffer img n).height := by
        simp only [levelImage, Raster.halved_height, Nat.shiftRight_eq_div_pow]
        interval_cases n <;> omega
      obtain ⟨m'', hblur, hnew, hframe⟩ := blurInplace_spec
        (inMemory_of_size hsize' (levelImage_inMemory hargs hn)) hthis hrows
      refine ⟨m'', by rw [himages n hn, hblur], fun b => (hframe.size b).trans (hsize' b),
        fun i hi => ?_⟩
      rcases lt_trichotomy i n with hlt | rfl | hgt
      · rw [if_pos (by omega)]
        have h := (hlevels i hi).of_agreesOutside hframe (levelImage_disjoint hargs hlt hn)
        rwa [if_pos hlt] at h
      · rw [if_pos (by omega)]
        exact hnew
      · rw [if_neg (by omega)]
        have hdisjoint := levelImage_disjoint hargs hgt hi
        have h := (hlevels i hi).of_agreesOutside hframe
          (hdisjoint.imp (fun h => h.symm) fun h => h.symm)
        rwa [if_neg (by omega)] at h)
  refine ⟨m', hloop, fun i hi => ?_⟩
  have h := hblurred i hi
  rwa [if_pos (show i < pyramidLevels from Nat.lt_succ_of_le hi)] at h

/-- The two arrays of the callers: the image data and the pyramid buffer. -/
inductive Region
  | imageData
  | imagePyramid
  deriving DecidableEq

/-- An image and a pyramid buffer of `n` bytes that are not written yet. -/
def Raster.memory (img : Raster) (n : ℕ) : Memory Region UInt8 where
  array
    | .imageData => img.data
    | .imagePyramid => Buffer.blank n

lemma pyramidArguments_memory (img : Raster) {n : ℕ} (hn : img.levelsEnd 4 ≤ n) :
    PyramidArguments ⟨⟨.imageData, 0⟩, img.width, img.height⟩ ⟨.imagePyramid, 0⟩ img
      (img.memory n) := by
  refine ⟨⟨rfl, rfl, fun x y hx hy => ?_⟩, ⟨le_rfl, ?_⟩, ⟨le_rfl, ?_⟩, Or.inl (by simp)⟩
  · simp only [Memory.read, Raster.memory, zero_add]
    exact Raster.read_data ⟨⟨by omega, by exact_mod_cast hx⟩, by omega, by exact_mod_cast hy⟩
  · simp only [Raster.memory, Raster.data, zero_add]
    push_cast
    linarith
  · simp only [Raster.memory, Buffer.size_blank, zero_add]
    exact_mod_cast hn

/-- Level `i` of the pyramid is the blurred image of the `i` times halved source. The levels above
the first one lie one behind the other from the start of the buffer and take at most a third of
the source. -/
theorem imagePyramid_spec (hargs : PyramidArguments source pyramidBuffer img m)
    (hheight : 32 ≤ img.height) :
    ∃ images m', imagePyramid source pyramidBuffer m = some (images, m') ∧
      (∀ i < 5, ((images i).width = img.width >>> i ∧ (images i).height = img.height >>> i) ∧
        (images i).Holds m' (img.level i)) ∧
      ((images 0).data = source.data ∧ (images 1).data = pyramidBuffer ∧
        ∀ i, 1 ≤ i → i < 4 → (images (i + 1)).data
          = (images i).data.shift ((images i).height * (images i).width)) ∧
      (∀ i j, 1 ≤ i → i < j → j < 5 → (images i).DisjointFrom (images j)) ∧
      3 * ((images 1).width * (images 1).height + (images 2).width * (images 2).height
        + (images 3).width * (images 3).height + (images 4).width * (images 4).height)
          ≤ img.width * img.height := by
  obtain ⟨s, hbuild, hbuilt⟩ := buildLevels_spec hargs
  obtain ⟨m', hblur, hlevels⟩ := blurLevels_spec hargs hheight hbuilt
  have himages := hbuilt.images
  refine ⟨s.images, m', ?_, fun i hi => ?_, ⟨?_, ?_, fun i hi hi' => ?_⟩,
    fun i j hi hij hj => ?_, ?_⟩
  · simp only [imagePyramid, hbuild, hblur, Option.bind_eq_bind, Option.bind_some]
    rfl
  · rw [himages i (by omega)]
    exact ⟨⟨Raster.halved_width i, Raster.halved_height i⟩, hlevels i (by omega)⟩
  · rw [himages 0 (by omega)]
    rfl
  · rw [himages 1 (by omega)]
    simp [levelImage, Raster.levelsEnd, Pointer.shift]
  · obtain ⟨k, rfl⟩ := Nat.exists_eq_add_of_le' hi
    rw [himages (k + 1 + 1) (by omega), himages (k + 1) (by omega), levelImage_size]
    simp only [levelImage, Pointer.shift, Nat.succ_ne_zero, if_false, Nat.add_sub_cancel,
      Pointer.mk.injEq, true_and]
    omega
  · rw [himages i (by omega), himages j (by omega)]
    exact levelImage_disjoint hargs hij (by omega)
  · have hquarter := img.levelsEnd_le 4
    rw [himages 1 (by omega), himages 2 (by omega), himages 3 (by omega), himages 4 (by omega)]
    simp only [Raster.levelsEnd, levelImage, Nat.reduceAdd] at hquarter ⊢
    omega

/-- A 16x32 image that gets brighter to the right and to the bottom. -/
def ramp : Raster := ⟨16, 32, fun x y => UInt8.ofNat (x + 2 * y).toNat⟩

lemma rampArguments : PyramidArguments ⟨⟨.imageData, 0⟩, 16, 32⟩ ⟨.imagePyramid, 0⟩ ramp
    (ramp.memory 170) := pyramidArguments_memory ramp (by decide)

theorem imagePyramid_ramp :
    ∃ images m', imagePyramid ⟨⟨.imageData, 0⟩, 16, 32⟩ ⟨.imagePyramid, 0⟩ (ramp.memory 170)
        = some (images, m') ∧
      m'.read (images 4).data 1 = some 54 := by
  obtain ⟨images, m', hrun, hlevels, -⟩ := imagePyramid_spec rampArguments (by decide)
  obtain ⟨⟨hwidth, hheight⟩, hholds⟩ := hlevels 4 (by decide)
  refine ⟨images, m', hrun, ?_⟩
  have h := hholds.read 0 1 (by rw [hwidth]; decide) (by rw [hheight]; decide)
  rw [hwidth] at h
  exact h.trans (by decide +kernel)

end VioFrontend
