import VioFrontend.Library.Residuals
import VioFrontend.Lodepng.Basic
import VioFrontend.Lodepng.Filter

/-!
# Unfiltering an image

`unfilter` turns the filtered lines of an image back into its bytes. A filtered line starts with
the type of its filter. The bytes of the image form a sequence, line after line, and what a filter
expects is before the byte in this sequence, so the image is decoded from its residuals. The
result may be written over the filtered lines: a line ends before the next filtered one starts.
-/

namespace VioFrontend

open Checked

namespace lodepng

variable {β : Type}

/-! ### The code -/

section

variable [DecidableEq β]

/-- The lines from `y` on, `n` of them. -/
def unfilterLines (out input : Pointer β) (bytewidth linebytes : ℕ) :
    ℕ → ℕ → Option (Pointer β) → Memory β UInt8 → Option (Memory β UInt8 × ℕ)
  | 0, _, _, m            => some (m, 0)
  | n + 1, y, prevline, m => do
    let outindex := linebytes * y
    let inindex := (1 + linebytes) * y
    let filterType ← m.read input inindex
    let (m, error) ← unfilterScanline (out.shift outindex) (input.shift (inindex + 1 : ℕ)) prevline
      bytewidth filterType linebytes m
    if error ≠ 0 then return (m, error)
    else unfilterLines out input bytewidth linebytes n (y + 1) (some (out.shift outindex)) m

/-- The number is the error. -/
def unfilter (out input : Pointer β) (w h bpp : ℕ) (m : Memory β UInt8) :
    Option (Memory β UInt8 × ℕ) :=
  unfilterLines out input (bytewidth bpp) (linebytes w bpp) h 0 none m

end

/-! ### What the filters of an image expect -/

/-- What the filters expect, in the sequence of the bytes of an image. -/
def expected (types : ℕ → UInt8) (bytewidth linebytes : ℕ) (f : ℕ → UInt8) (n : ℕ) : UInt8 :=
  predictor (types (n / linebytes)).toNat
    (if n % linebytes < bytewidth then 0 else f (n - bytewidth))
    (if n < linebytes then 0 else f (n - linebytes))
    (if n % linebytes < bytewidth ∨ n < linebytes then 0 else f (n - linebytes - bytewidth))

/-- The line above line `y`. -/
def above (linebytes : ℕ) (f : ℕ → UInt8) : ℕ → ℕ → UInt8
  | 0, _     => 0
  | y + 1, x => f (linebytes * y + x)

variable {types : ℕ → UInt8} {width length : ℕ}

lemma expected_causal (types : ℕ → UInt8) (hwidth : 0 < width) (hlength : 0 < length) :
    Residuals.Causal (expected types width length) := by
  intro f g n hfg
  have hle := Nat.mod_le n length
  unfold expected
  congr 1
  · split_ifs with h
    · rfl
    · exact hfg _ (by omega)
  · split_ifs with h
    · rfl
    · exact hfg _ (by omega)
  · split_ifs with h
    · rfl
    · exact hfg _ (by omega)

lemma expected_line {f : ℕ → UInt8} {x y : ℕ} (hx : x < length) (hwidth : width ≤ length) :
    expected types width length f (length * y + x) =
      predictor (types y).toNat (before width (fun x => f (length * y + x)) x)
        (above length f y x) (before width (above length f y) x) := by
  have hpos : 0 < length := by omega
  rw [expected, Nat.mul_add_mod, Nat.mod_eq_of_lt hx, Nat.mul_add_div hpos,
    Nat.div_eq_of_lt hx, Nat.add_zero, before, before]
  rcases y with _ | y
  · simp only [Nat.mul_zero, Nat.zero_add, above, hx, or_true, if_true, ite_self]
  · have hnot : ¬ length * (y + 1) + x < length := by
      rw [Nat.mul_succ]
      omega
    simp only [hnot, or_false, if_false, above]
    congr 1
    · split_ifs with h
      · rfl
      · congr 1
        omega
    · congr 1
      rw [Nat.mul_succ]
      omega
    · split_ifs with h
      · rfl
      · congr 1
        rw [Nat.mul_succ]
        omega

/-! ### The lines of an image -/

/-- The memory in front of a call: the types and the filtered bytes of `h` lines are at `input`.
The result may be written over them, or in front of them. -/
structure Filtered (out input : Pointer β) (types s : ℕ → UInt8) (length h : ℕ)
    (m : Memory β UInt8) : Prop where
  type : ∀ y < h, m.read input ((1 + length) * y : ℕ) = some (types y)
  byte : ∀ y < h, ∀ x < length,
    m.read input ((1 + length) * y + 1 + x : ℕ) = some (s (length * y + x))
  inRange : m.InRange out (length * h : ℕ)
  apart : input.block ≠ out.block ∨ input.offset + ((1 + length) * h : ℕ) ≤ out.offset ∨
    out.offset ≤ input.offset

variable {out input : Pointer β} {s f : ℕ → UInt8} {h y : ℕ} {m₀ m : Memory β UInt8}

lemma mul_add_le (length : ℕ) (hy : y < h) : length * y + length ≤ length * h :=
  Nat.mul_le_mul_left length hy

lemma one_add_mul_eq (y : ℕ) : (1 + length) * y = y + length * y := by
  rw [Nat.add_mul, Nat.one_mul]

lemma read_shift (m : Memory β UInt8) (p : Pointer β) (k x : ℕ) :
    m.read (p.shift k) x = m.read p (k + x : ℕ) := by
  simp only [Memory.read, Pointer.shift, Nat.cast_add, add_assoc]

lemma write_shift [DecidableEq β] (m : Memory β UInt8) (p : Pointer β) (k x : ℕ) (v : UInt8) :
    m.write (p.shift k) x v = m.write p (k + x : ℕ) v := by
  simp only [Memory.write, Pointer.shift, Nat.cast_add, add_assoc]

section

variable (hfiltered : Filtered out input types s length h m₀)
  (hwritten : Written out f m₀ (length * y) m) (hy : y < h)

include hfiltered hwritten hy

/-- The filtered lines from line `y` on are still there after `y` lines. -/
lemma Filtered.read_eq {k : ℕ} (hk : (1 + length) * y ≤ k) (hk' : k < (1 + length) * h) :
    m.read input k = m₀.read input k := by
  rw [hwritten.frame.read_eq]
  have hrow := mul_add_le length hy
  have hapart := hfiltered.apart
  rw [one_add_mul_eq] at *
  refine hapart.imp id fun hapart => ?_
  push_cast at *
  omega

lemma Filtered.line {prevline : Option (Pointer β)}
    (hprevline : prevline = if y = 0 then none else some (out.shift (length * (y - 1) : ℕ))) :
    Line (out.shift (length * y : ℕ)) (input.shift ((1 + length) * y + 1 : ℕ)) prevline length
      (fun x => s (length * y + x)) (above length f y) m where
  inRange := by
    obtain ⟨hlow, hhigh⟩ := hwritten.frame.inRange hfiltered.inRange
    have hrow := mul_add_le length hy
    refine ⟨?_, ?_⟩ <;> simp only [Pointer.shift] <;> push_cast at * <;> omega
  filtered := by
    intro x hx
    have hrow := mul_add_le (1 + length) hy
    rw [read_shift, hfiltered.read_eq hwritten hy (by omega) (by omega), hfiltered.byte y hy x hx]
  apart := by
    have hrow := mul_add_le length hy
    have hapart := hfiltered.apart
    rw [one_add_mul_eq] at *
    refine hapart.imp id fun hapart => ?_
    simp only [Pointer.shift]
    push_cast at *
    omega
  above := by
    rintro p rfl
    rcases y with _ | y
    · cases hprevline
    · obtain rfl := Option.some.inj hprevline
      refine ⟨fun x hx => ?_, Or.inr (Or.inl ?_)⟩
      · rw [read_shift]
        refine hwritten.read _ ?_
        rw [Nat.add_sub_cancel, Nat.mul_succ]
        omega
      · simp only [Pointer.shift, Nat.add_sub_cancel, Nat.mul_succ]
        push_cast
        omega
  none_above := by
    rintro rfl x
    rcases y with _ | y
    · rfl
    · cases hprevline

end

/-- The bytes of one more line. -/
lemma Written.line {m' : Memory β UInt8} (h : Written out f m₀ (length * y) m)
    (hline : Written (out.shift (length * y : ℕ)) (fun x => f (length * y + x)) m length m') :
    Written out f m₀ (length * (y + 1)) m' := by
  refine ⟨fun n hn => ?_, ?_⟩
  · by_cases hlt : n < length * y
    · rw [hline.frame.read_eq, h.read n hlt]
      refine Or.inr (Or.inl ?_)
      simp only [Pointer.shift]
      omega
    · have hread := hline.read (n - length * y) (by rw [Nat.mul_succ] at hn; omega)
      rwa [read_shift, Nat.add_sub_cancel' (by omega)] at hread
  · have hpos := Int.natCast_nonneg (length * y)
    rw [Nat.mul_succ]
    refine (h.frame.mono rfl le_rfl (by push_cast; omega)).trans (hline.frame.mono rfl ?_ ?_) <;>
      simp only [Pointer.shift] <;> push_cast at * <;> omega

section

variable [DecidableEq β] {k : ℕ}

/-- All lines are decoded, up to the first one with an invalid type. -/
lemma unfilterLines_spec (hfiltered : Filtered out input types s length h m₀) (hwidth : 0 < width)
    (hle : width ≤ length) (hf : Residuals.Decodes (expected types width length) s f (length * h))
    (hk : k ≤ h) (hvalid : ∀ y < k, (types y).toNat ≤ 4) (hend : k = h ∨ 4 < (types k).toNat) :
    ∀ n y prevline m, y + n = h → y ≤ k →
      (prevline = if y = 0 then none else some (out.shift (length * (y - 1) : ℕ))) →
      Written out f m₀ (length * y) m →
      ∃ m', unfilterLines out input width length n y prevline m
          = some (m', if k = h then 0 else 36) ∧
        Written out f m₀ (length * k) m' := by
  intro n
  induction n with
  | zero =>
    intro y prevline m hn hy _ hwritten
    obtain rfl : y = k := by omega
    exact ⟨m, by rw [unfilterLines, if_pos (by omega)], hwritten⟩
  | succ n ih =>
    intro y prevline m hn hy hprevline hwritten
    have hyh : y < h := by omega
    have hrow := mul_add_le (1 + length) hyh
    have htype : m.read input ((1 + length) * y : ℕ) = some (types y) := by
      rw [hfiltered.read_eq hwritten hyh le_rfl (by omega), hfiltered.type y hyh]
    rw [unfilterLines, htype, Option.bind_eq_bind, Option.bind_some]
    rcases Nat.lt_or_eq_of_le hy with hlt | rfl
    · obtain ⟨m', hscanline, hline⟩ := unfilterScanline_spec
        (hfiltered.line hwritten hyh hprevline) hwidth hle (hvalid y hlt)
        (r := fun x => f (length * y + x)) (fun x hx => by
          have hrow := mul_add_le length hyh
          rw [hf _ (by omega), expected_line hx hle])
      rw [hscanline]
      exact ih (y + 1) _ m' (by omega) hlt rfl (hwritten.line hline)
    · have hinvalid : 4 < (types y).toNat := hend.resolve_left (by omega)
      refine ⟨m, ?_, hwritten⟩
      rw [unfilterScanline_invalid hinvalid, if_neg (by omega)]
      rfl

/-- Decoding an image does not depend on where its bytes are written. -/
theorem unfilter_spec {w bpp : ℕ} (hw : 0 < w) (hbpp : 0 < bpp)
    (hfiltered : Filtered out input types s (linebytes w bpp) h m) (hk : k ≤ h)
    (hvalid : ∀ y < k, (types y).toNat ≤ 4) (hend : k = h ∨ 4 < (types k).toNat) :
    ∃ m', unfilter out input w h bpp m = some (m', if k = h then 0 else 36) ∧
      Written out
        (Residuals.decode (expected types (bytewidth bpp) (linebytes w bpp)) s) m
        (linebytes w bpp * k) m' := by
  have hwidth := bytewidth_pos hbpp
  have hle := bytewidth_le_linebytes bpp hw
  have hcausal := expected_causal types hwidth (hwidth.trans_le hle)
  exact unfilterLines_spec hfiltered hwidth hle (Residuals.decodes_decode hcausal s _) hk hvalid
    hend h 0 none m (Nat.zero_add h) (Nat.zero_le k) rfl
    ⟨fun n hn => absurd hn (Nat.not_lt_zero n), .refl _ _ _⟩

end

/-- Two lines of two pixels of a byte each, the second one with the filter of type 4. -/
def twoLines : Memory Unit UInt8 := ⟨fun _ => ⟨6, fun k => [1, 5, 6, 4, 250, 9][k]?⟩⟩

/-- Decoded over the filtered lines. -/
theorem unfilter_spec_twoLines :
    ∃ m', unfilter ⟨(), 0⟩ ⟨(), 0⟩ 2 2 8 twoLines = some (m', 0) ∧
      Written ⟨(), 0⟩
        (Residuals.decode (expected (fun y => if y = 0 then 1 else 4) (bytewidth 8)
          (linebytes 2 8)) fun n => [5, 6, 250, 9].getD n 0)
        twoLines (linebytes 2 8 * 2) m' :=
  unfilter_spec (by decide) (by decide)
    ⟨by decide, by decide, ⟨le_rfl, by decide⟩, Or.inr (Or.inr le_rfl)⟩ le_rfl (by decide)
    (Or.inl rfl)

example : (do
    let (m, _) ← unfilter ⟨(), 0⟩ ⟨(), 0⟩ 2 2 8 twoLines
    (List.range 4).mapM fun (n : ℕ) => m.read ⟨(), 0⟩ n) = some [5, 11, 255, 8] := by decide

end lodepng

end VioFrontend
