import VioFrontend.Lodepng.Basic
import VioFrontend.Lodepng.BitStream

/-!
# Adam7 interlacing

An interlaced image consists of seven reduced images, the passes. The pixels of the image are
divided among them by their position in a square of eight by eight. `adam7Deinterlace` moves every
pixel to its place; pixels of less than a byte are moved bit by bit.
-/

namespace VioFrontend

open Checked Moves

namespace lodepng

/-! ### The code -/

/-- x start values -/
def adam7IX (i : ℕ) : ℕ := [0, 4, 0, 2, 0, 1, 0].getD i 0

/-- y start values -/
def adam7IY (i : ℕ) : ℕ := [0, 0, 4, 0, 2, 0, 1].getD i 0

/-- x delta values -/
def adam7DX (i : ℕ) : ℕ := [8, 8, 4, 4, 2, 2, 1].getD i 0

/-- y delta values -/
def adam7DY (i : ℕ) : ℕ := [8, 8, 8, 4, 4, 2, 2].getD i 0

/-- The width and the height of pass `i`, of `Adam7_getpassvalues`; both are 0 if one is. -/
def passSize (w h i : ℕ) : ℕ × ℕ :=
  let passw := (w + adam7DX i - adam7IX i - 1) / adam7DX i
  let passh := (h + adam7DY i - adam7IY i - 1) / adam7DY i
  let passh := if passw = 0 then 0 else passh
  let passw := if passh = 0 then 0 else passw
  (passw, passh)

def passw (w h i : ℕ) : ℕ := (passSize w h i).1

def passh (w h i : ℕ) : ℕ := (passSize w h i).2

/-- Where the passes start with their filter types; the last value is the end. -/
def filterPassstart (w h bpp : ℕ) : ℕ → ℕ
  | 0     => 0
  | i + 1 => filterPassstart w h bpp i +
    if passw w h i ≠ 0 ∧ passh w h i ≠ 0 then
      passh w h i * (1 + (passw w h i * bpp + 7) / 8)
    else 0

/-- Where they start without the filter types. -/
def paddedPassstart (w h bpp : ℕ) : ℕ → ℕ
  | 0     => 0
  | i + 1 => paddedPassstart w h bpp i + passh w h i * ((passw w h i * bpp + 7) / 8)

/-- Where they start without the padding of the lines. -/
def passstart (w h bpp : ℕ) : ℕ → ℕ
  | 0     => 0
  | i + 1 => passstart w h bpp i + (passh w h i * passw w h i * bpp + 7) / 8

section

variable {β : Type} [DecidableEq β]

def adam7Deinterlace (out input : Pointer β) (w h bpp : ℕ) (m : Memory β UInt8) :
    Option (Memory β UInt8) :=
  if bpp ≥ 8 then
    (List.range 7).foldlM (fun m i =>
      let bytewidth := bpp / 8
      (List.range (passh w h i)).foldlM (fun m y =>
        (List.range (passw w h i)).foldlM (fun m x =>
          let pixelinstart := passstart w h bpp i + (y * passw w h i + x) * bytewidth
          let pixeloutstart :=
            ((adam7IY i + y * adam7DY i) * w + adam7IX i + x * adam7DX i) * bytewidth
          (List.range bytewidth).foldlM (fun m b => do
            let v ← m.read input (pixelinstart + b : ℕ)
            m.write out (pixeloutstart + b : ℕ) v) m) m) m) m
  else
    (List.range 7).foldlM (fun m i =>
      let ilinebits := bpp * passw w h i
      let olinebits := bpp * w
      (List.range (passh w h i)).foldlM (fun m y =>
        (List.range (passw w h i)).foldlM (fun m x => do
          let ibp := 8 * passstart w h bpp i + (y * ilinebits + x * bpp)
          let obp := (adam7IY i + y * adam7DY i) * olinebits + (adam7IX i + x * adam7DX i) * bpp
          let (m, _, _) ← copyBits out input bpp (m, ibp, obp)
          return m) m) m) m

end

/-! ### The passes -/

/-- The pass of the pixel in column `X` of row `Y`. -/
def passOf (X Y : ℕ) : ℕ :=
  if Y % 2 = 1 then 6
  else if X % 2 = 1 then 5
  else if Y % 4 = 2 then 4
  else if X % 4 = 2 then 3
  else if Y % 8 = 4 then 2
  else if X % 8 = 4 then 1
  else 0

/-- The column of a pixel in its pass. -/
def passX (X Y : ℕ) : ℕ := (X - adam7IX (passOf X Y)) / adam7DX (passOf X Y)

/-- The row of a pixel in its pass. -/
def passY (X Y : ℕ) : ℕ := (Y - adam7IY (passOf X Y)) / adam7DY (passOf X Y)

variable {w h bpp i x y : ℕ}

lemma passOf_lt (X Y : ℕ) : passOf X Y < 7 := by
  rw [passOf]
  split_ifs <;> decide

/-- A pixel is at the place that its pass gives it. -/
lemma passOf_position (X Y : ℕ) :
    adam7IX (passOf X Y) + passX X Y * adam7DX (passOf X Y) = X ∧
      adam7IY (passOf X Y) + passY X Y * adam7DY (passOf X Y) = Y := by
  rw [passX, passY]
  generalize hpass : passOf X Y = i
  rw [passOf] at hpass
  split_ifs at hpass <;> subst hpass <;> simp only [adam7IX, adam7IY, adam7DX, adam7DY,
    List.getD_cons_zero, List.getD_cons_succ] <;> omega

/-- No other pass has it. -/
lemma passOf_eq (hi : i < 7) (x y : ℕ) :
    passOf (adam7IX i + x * adam7DX i) (adam7IY i + y * adam7DY i) = i := by
  rw [passOf]
  interval_cases i <;> simp only [adam7IX, adam7IY, adam7DX, adam7DY, List.getD_cons_zero,
    List.getD_cons_succ] <;> split_ifs <;> omega

lemma passX_eq (hi : i < 7) (x y : ℕ) :
    passX (adam7IX i + x * adam7DX i) (adam7IY i + y * adam7DY i) = x := by
  have hpos : 0 < adam7DX i := by interval_cases i <;> decide
  rw [passX, passOf_eq hi, Nat.add_sub_cancel_left, Nat.mul_div_cancel _ hpos]

lemma passY_eq (hi : i < 7) (x y : ℕ) :
    passY (adam7IX i + x * adam7DX i) (adam7IY i + y * adam7DY i) = y := by
  have hpos : 0 < adam7DY i := by interval_cases i <;> decide
  rw [passY, passOf_eq hi, Nat.add_sub_cancel_left, Nat.mul_div_cancel _ hpos]

/-- The pixels of a pass are those of its positions that lie in the image. -/
lemma mem_pass_iff (hi : i < 7) :
    x < passw w h i ∧ y < passh w h i ↔
      adam7IX i + x * adam7DX i < w ∧ adam7IY i + y * adam7DY i < h := by
  simp only [passw, passh, passSize]
  interval_cases i <;> simp only [adam7IX, adam7IY, adam7DX, adam7DY, List.getD_cons_zero,
    List.getD_cons_succ] <;> split_ifs <;> omega

/-! ### The places of the pixels -/

/-- Part `b` of the `n` parts of a pixel of a pass. -/
structure PixelPart where
  pass : ℕ
  y : ℕ
  x : ℕ
  b : ℕ

/-- The column of the pixel in the image. -/
def PixelPart.X (p : PixelPart) : ℕ := adam7IX p.pass + p.x * adam7DX p.pass

/-- The row of the pixel in the image. -/
def PixelPart.Y (p : PixelPart) : ℕ := adam7IY p.pass + p.y * adam7DY p.pass

/-- Its index in the image. -/
def PixelPart.imageIndex (p : PixelPart) (w n : ℕ) : ℕ := (p.Y * w + p.X) * n + p.b

/-- Its index in its pass. -/
def PixelPart.passIndex (p : PixelPart) (w h n : ℕ) : ℕ :=
  (p.y * passw w h p.pass + p.x) * n + p.b

/-- The parts of all pixels in the order of the loops. -/
def pixelParts (w h n : ℕ) : List PixelPart :=
  (List.range 7).flatMap fun i => (List.range (passh w h i)).flatMap fun y =>
    (List.range (passw w h i)).flatMap fun x => (List.range n).map fun b => ⟨i, y, x, b⟩

variable {n : ℕ}

lemma mem_pixelParts {p : PixelPart} :
    p ∈ pixelParts w h n ↔
      p.pass < 7 ∧ p.y < passh w h p.pass ∧ p.x < passw w h p.pass ∧ p.b < n := by
  obtain ⟨i, y, x, b⟩ := p
  simp only [pixelParts, List.mem_flatMap, List.mem_map, List.mem_range, PixelPart.mk.injEq]
  constructor
  · rintro ⟨i, hi, y, hy, x, hx, b, hb, rfl, rfl, rfl, rfl⟩
    exact ⟨hi, hy, hx, hb⟩
  · rintro ⟨hi, hy, hx, hb⟩
    exact ⟨i, hi, y, hy, x, hx, b, hb, rfl, rfl, rfl, rfl⟩

/-- A list is free of duplicates when the element it was made from can be told from a result. -/
lemma nodup_flatMap_of_key {α γ : Type} {l : List α} {f : α → List γ} (key : γ → α)
    (hl : l.Nodup) (hf : ∀ a ∈ l, (f a).Nodup) (hkey : ∀ a, ∀ c ∈ f a, key c = a) :
    (l.flatMap f).Nodup := by
  refine List.nodup_flatMap.mpr ⟨hf, hl.imp fun {a a'} hne => ?_⟩
  intro c hc hc'
  exact hne ((hkey a c hc).symm.trans (hkey a' c hc'))

lemma nodup_pixelParts : (pixelParts w h n).Nodup := by
  refine nodup_flatMap_of_key PixelPart.pass List.nodup_range (fun i _ => ?_) (fun i p hp => ?_)
  · refine nodup_flatMap_of_key PixelPart.y List.nodup_range (fun y _ => ?_) (fun y p hp => ?_)
    · refine nodup_flatMap_of_key PixelPart.x List.nodup_range (fun x _ => ?_) (fun x p hp => ?_)
      · exact List.nodup_range.map fun b b' heq => (PixelPart.mk.inj heq).2.2.2
      · obtain ⟨b, -, rfl⟩ := List.mem_map.mp hp
        rfl
    · obtain ⟨x, -, hp⟩ := List.mem_flatMap.mp hp
      obtain ⟨b, -, rfl⟩ := List.mem_map.mp hp
      rfl
  · obtain ⟨y, -, hp⟩ := List.mem_flatMap.mp hp
    obtain ⟨x, -, hp⟩ := List.mem_flatMap.mp hp
    obtain ⟨b, -, rfl⟩ := List.mem_map.mp hp
    rfl

/-- Quotient and remainder of an index. -/
lemma eq_of_mul_add_eq {k k' b b' : ℕ} (hb : b < n) (hb' : b' < n)
    (h : k * n + b = k' * n + b') : k = k' ∧ b = b' := by
  have hn : 0 < n := by omega
  have hdiv : ∀ k b, b < n → (k * n + b) / n = k := fun k b hb => by
    rw [Nat.mul_comm, Nat.mul_add_div hn, Nat.div_eq_of_lt hb, Nat.add_zero]
  have hk : k = k' := by rw [← hdiv k b hb, h, hdiv k' b' hb']
  subst hk
  exact ⟨rfl, Nat.add_left_cancel h⟩

lemma PixelPart.position_lt {p : PixelPart} (hp : p ∈ pixelParts w h n) : p.X < w ∧ p.Y < h := by
  obtain ⟨hi, hy, hx, -⟩ := mem_pixelParts.mp hp
  exact (mem_pass_iff hi).mp ⟨hx, hy⟩

/-- No two parts have the same place in the image. -/
lemma PixelPart.imageIndex_inj {p q : PixelPart} (hp : p ∈ pixelParts w h n)
    (hq : q ∈ pixelParts w h n) (heq : p.imageIndex w n = q.imageIndex w n) : p = q := by
  obtain ⟨hpi, -, -, hpb⟩ := mem_pixelParts.mp hp
  obtain ⟨hqi, -, -, hqb⟩ := mem_pixelParts.mp hq
  obtain ⟨hindex, hb⟩ := eq_of_mul_add_eq hpb hqb heq
  obtain ⟨hY, hX⟩ := eq_of_mul_add_eq (position_lt hp).1 (position_lt hq).1 hindex
  have hi : p.pass = q.pass := by
    rw [← passOf_eq hpi p.x p.y, ← passOf_eq hqi q.x q.y]
    exact congrArg₂ passOf hX hY
  have hx : p.x = q.x := by
    rw [← passX_eq hpi p.x p.y, ← passX_eq hqi q.x q.y]
    exact congrArg₂ passX hX hY
  have hy : p.y = q.y := by
    rw [← passY_eq hpi p.x p.y, ← passY_eq hqi q.x q.y]
    exact congrArg₂ passY hX hY
  cases p
  cases q
  simp only [mk.injEq]
  exact ⟨hi, hy, hx, hb⟩

lemma pixelParts_pairwise :
    (pixelParts w h n).Pairwise fun p q => p.imageIndex w n ≠ q.imageIndex w n :=
  List.Pairwise.imp_of_mem (fun hp hq hne heq => hne (PixelPart.imageIndex_inj hp hq heq))
    nodup_pixelParts

/-- The byte of a pixel that bit `b` is in. -/
def PixelPart.byte (p : PixelPart) : PixelPart := { p with b := p.b / 8 }

lemma PixelPart.byte_mem {p : PixelPart} (hp : p ∈ pixelParts w h (8 * n)) :
    p.byte ∈ pixelParts w h n := by
  obtain ⟨hi, hy, hx, hb⟩ := mem_pixelParts.mp hp
  exact mem_pixelParts.mpr ⟨hi, hy, hx, Nat.div_lt_of_lt_mul hb⟩

/-- The first bit of a byte. -/
lemma PixelPart.exists_byte {q : PixelPart} (hq : q ∈ pixelParts w h n) :
    ∃ p ∈ pixelParts w h (8 * n), p.byte = q ∧ p.b % 8 = 0 := by
  obtain ⟨hi, hy, hx, hb⟩ := mem_pixelParts.mp hq
  refine ⟨{ q with b := 8 * q.b }, mem_pixelParts.mpr ⟨hi, hy, hx, ?_⟩, ?_, ?_⟩
  · exact Nat.mul_lt_mul_of_pos_left hb (by decide)
  · simp only [byte, Nat.mul_div_cancel_left _ (by decide : 0 < 8)]
  · exact Nat.mul_mod_right 8 q.b

lemma PixelPart.imageIndex_byte (p : PixelPart) :
    p.imageIndex w (8 * n) = 8 * p.byte.imageIndex w n + p.b % 8 := by
  have hb : 8 * (p.b / 8) + p.b % 8 = p.b := Nat.div_add_mod p.b 8
  simp only [imageIndex, byte, X, Y]
  calc _ = 8 * (((adam7IY p.pass + p.y * adam7DY p.pass) * w
        + (adam7IX p.pass + p.x * adam7DX p.pass)) * n) + p.b := by ring
    _ = _ := by omega

lemma PixelPart.passIndex_byte (p : PixelPart) :
    p.passIndex w h (8 * n) = 8 * p.byte.passIndex w h n + p.b % 8 := by
  have hb : 8 * (p.b / 8) + p.b % 8 = p.b := Nat.div_add_mod p.b 8
  simp only [passIndex, byte]
  calc _ = 8 * ((p.y * passw w h p.pass + p.x) * n) + p.b := by ring
    _ = _ := by omega

/-! ### Moving the pixels -/

section

variable {β : Type} [DecidableEq β] {out input : Pointer β} {m : Memory β UInt8}

lemma adam7Deinterlace_eq_bytes (hbpp : 8 ≤ bpp) :
    adam7Deinterlace out input w h bpp m
      = bytes.moves
          (fun p => byteAddress input (passstart w h bpp p.pass + p.passIndex w h (bpp / 8)))
          (fun p => byteAddress out (p.imageIndex w (bpp / 8))) (pixelParts w h (bpp / 8)) m := by
  rw [adam7Deinterlace, if_pos hbpp, pixelParts]
  simp only [moves_flatMap, moves_map]
  simp only [Store.moves, bytes_move_eq, PixelPart.imageIndex, PixelPart.passIndex, PixelPart.X,
    PixelPart.Y, Nat.add_assoc]
  rfl

lemma adam7Deinterlace_eq_bits (hbpp : bpp < 8) :
    adam7Deinterlace out input w h bpp m
      = bits.moves
          (fun p => bitAddress input (8 * passstart w h bpp p.pass + p.passIndex w h bpp))
          (fun p => bitAddress out (p.imageIndex w bpp)) (pixelParts w h bpp) m := by
  rw [adam7Deinterlace, if_neg (by omega), pixelParts]
  have hpixel : ∀ i y x m, (do
        let (m, _, _) ← copyBits out input bpp
          (m, 8 * passstart w h bpp i + (y * (bpp * passw w h i) + x * bpp),
            (adam7IY i + y * adam7DY i) * (bpp * w) + (adam7IX i + x * adam7DX i) * bpp)
        return m)
      = bits.moves
          (fun b => bitAddress input
            (8 * passstart w h bpp i + PixelPart.passIndex ⟨i, y, x, b⟩ w h bpp))
          (fun b => bitAddress out (PixelPart.imageIndex ⟨i, y, x, b⟩ w bpp))
          (List.range bpp) m := by
    intro i y x m
    have hsource : ∀ b, 8 * passstart w h bpp i + PixelPart.passIndex ⟨i, y, x, b⟩ w h bpp
        = 8 * passstart w h bpp i + (y * (bpp * passw w h i) + x * bpp) + b := by
      intro b
      simp only [PixelPart.passIndex]
      ring
    have hdest : ∀ b, PixelPart.imageIndex ⟨i, y, x, b⟩ w bpp
        = (adam7IY i + y * adam7DY i) * (bpp * w) + (adam7IX i + x * adam7DX i) * bpp + b := by
      intro b
      simp only [PixelPart.imageIndex, PixelPart.X, PixelPart.Y]
      ring
    simp only [hsource, hdest, copyBits_eq]
    generalize bits.moves _ _ (List.range bpp) m = o
    rcases o with _ | m'
    · rfl
    · rfl
  simp only [hpixel, moves_flatMap, moves_map]

/-- Every pixel is moved to its place, bit for bit. -/
lemma adam7Deinterlace_spec (hbpp : bpp < 8 ∨ 8 ∣ bpp) (hblock : out.block ≠ input.block)
    (hsource : ∀ p ∈ pixelParts w h bpp, (bits.get m
      (bitAddress input (8 * passstart w h bpp p.pass + p.passIndex w h bpp))).isSome = true)
    (hdest : ∀ p ∈ pixelParts w h bpp,
      (bits.get m (bitAddress out (p.imageIndex w bpp))).isSome = true) :
    ∃ m', adam7Deinterlace out input w h bpp m = some m' ∧ ∀ p ∈ pixelParts w h bpp,
      bits.get m' (bitAddress out (p.imageIndex w bpp))
        = bits.get m (bitAddress input (8 * passstart w h bpp p.pass + p.passIndex w h bpp)) := by
  by_cases hlt : bpp < 8
  · have horder : (pixelParts w h bpp).Pairwise fun p q =>
        bitAddress out (p.imageIndex w bpp)
            ≠ bitAddress input (8 * passstart w h bpp q.pass + q.passIndex w h bpp) ∧
          bitAddress out (p.imageIndex w bpp) ≠ bitAddress out (q.imageIndex w bpp) := by
      refine pixelParts_pairwise.imp fun {p q} hne => ⟨fun heq => ?_, fun heq => hne ?_⟩
      · exact hblock (congrArg Prod.fst heq)
      · have haddress : 8 * out.offset + (p.imageIndex w bpp : ℤ)
            = 8 * out.offset + (q.imageIndex w bpp : ℤ) := congrArg Prod.snd heq
        omega
    obtain ⟨m', hmoves, hmoved⟩ := exists_moves bits_lawful horder hsource hdest
    exact ⟨m', (adam7Deinterlace_eq_bits hlt).trans hmoves, hmoved.get_dest⟩
  · obtain ⟨n, rfl⟩ := hbpp.resolve_left hlt
    have hn : 8 * n / 8 = n := Nat.mul_div_cancel_left n (by decide)
    have hstart : ∀ p : PixelPart, 8 * passstart w h (8 * n) p.pass + p.passIndex w h (8 * n)
        = 8 * (passstart w h (8 * n) p.pass + p.byte.passIndex w h n) + p.b % 8 := by
      intro p
      rw [PixelPart.passIndex_byte]
      ring
    have hmod : ∀ p : PixelPart, p.b % 8 < 8 := fun p => Nat.mod_lt _ (by decide)
    have horder : (pixelParts w h n).Pairwise fun p q =>
        byteAddress out (p.imageIndex w n)
            ≠ byteAddress input (passstart w h (8 * n) q.pass + q.passIndex w h n) ∧
          byteAddress out (p.imageIndex w n) ≠ byteAddress out (q.imageIndex w n) := by
      refine pixelParts_pairwise.imp fun {p q} hne => ⟨fun heq => ?_, fun heq => hne ?_⟩
      · exact hblock (congrArg Prod.fst heq)
      · have haddress : out.offset + (p.imageIndex w n : ℤ) = out.offset + (q.imageIndex w n : ℤ) :=
          congrArg Prod.snd heq
        omega
    obtain ⟨m', hmoves, hmoved⟩ := exists_moves bytes_lawful horder
      (fun q hq => by
        obtain ⟨p, hp, rfl, -⟩ := PixelPart.exists_byte hq
        have hp := hsource p hp
        rwa [hstart, bits_get_of_byte _ _ (hmod p), Option.isSome_map] at hp)
      (fun q hq => by
        obtain ⟨p, hp, rfl, -⟩ := PixelPart.exists_byte hq
        have hp := hdest p hp
        rwa [PixelPart.imageIndex_byte, bits_get_of_byte _ _ (hmod p), Option.isSome_map] at hp)
    refine ⟨m', ?_, fun p hp => ?_⟩
    · rw [adam7Deinterlace_eq_bytes (by omega), hn]
      exact hmoves
    · rw [PixelPart.imageIndex_byte, hstart, bits_get_of_byte _ _ (hmod p),
        bits_get_of_byte _ _ (hmod p), hmoved.get_dest p.byte (PixelPart.byte_mem hp)]
      rfl

end

end lodepng

end VioFrontend
