import Mathlib.Data.UInt
import VioFrontend.Library.BlockMemory

/-!
# The line filters of PNG

The bytes of a filtered line are the differences to what the type of its filter expects from the
byte to the left, the one above and the one between them; outside of the image these are 0.
`unfilterScanline` adds what is expected. It leaves out the bytes that are 0, and takes up to four
steps at once where they do not depend on each other. The result may be written over the filtered
line.
-/

namespace VioFrontend

open Checked

namespace lodepng

variable {β : Type}

/-! ### The code -/

def paethPredictor (a b c : UInt8) : UInt8 :=
  let pa : ℤ := |(b.toNat : ℤ) - c.toNat|
  let pb : ℤ := |(a.toNat : ℤ) - c.toNat|
  let pc : ℤ := |(a.toNat : ℤ) + b.toNat - c.toNat - c.toNat|
  let (a, pa) := if pb < pa then (b, pb) else (a, pa)
  if pc < pa then c else a

/-- The average of two bytes, rounded down. -/
def average (a b : UInt8) : UInt8 := UInt8.ofNat ((a.toNat + b.toNat) >>> 1)

/-- What is added to the byte `i` of a line. -/
abbrev Expectation (β : Type) := ℕ → Memory β UInt8 → Option UInt8

namespace Expectation

def nothing : Expectation β := fun _ _ => some 0

/-- The byte `recon[i - bytewidth]`; the index `j` of the code is `i - bytewidth`. -/
def left (recon : Pointer β) (bytewidth : ℕ) : Expectation β := fun i m =>
  m.read recon (i - bytewidth : ℕ)

def up (precon : Pointer β) : Expectation β := fun i m => m.read precon i

def halfLeft (recon : Pointer β) (bytewidth : ℕ) : Expectation β := fun i m => do
  let r ← m.read recon (i - bytewidth : ℕ)
  return r >>> 1

def halfUp (precon : Pointer β) : Expectation β := fun i m => do
  let p ← m.read precon i
  return p >>> 1

def averaged (recon precon : Pointer β) (bytewidth : ℕ) : Expectation β := fun i m => do
  let r ← m.read recon (i - bytewidth : ℕ)
  let p ← m.read precon i
  return average r p

def paeth (recon precon : Pointer β) (bytewidth : ℕ) : Expectation β := fun i m => do
  let r ← m.read recon (i - bytewidth : ℕ)
  let p ← m.read precon i
  let q ← m.read precon (i - bytewidth : ℕ)
  return paethPredictor r p q

end Expectation

section

variable [DecidableEq β]

/-- `for(i = start; i != stop; ++i) recon[i] = scanline[i] + ...`; it does not end when `start` is
larger than `stop`. -/
def addLoop (recon scanline : Pointer β) (expect : Expectation β) (start stop : ℕ)
    (m : Memory β UInt8) : Option (Memory β UInt8) :=
  if start ≤ stop then
    (List.range (stop - start)).foldlM (fun m n => do
      let s ← m.read scanline (start + n : ℕ)
      let e ← expect (start + n) m
      m.write recon (start + n : ℕ) (s + e)) m
  else none

/-- The loop that takes `k` steps at once: all values are computed before one is written. It stops
when fewer than `k` bytes are left, and `i` is returned. -/
def unrolledLoop (k : ℕ) (recon scanline : Pointer β) (expect : Expectation β) (start stop : ℕ)
    (m : Memory β UInt8) : Option (Memory β UInt8 × ℕ) := do
  let m ← (List.range ((stop - start) / k)).foldlM (fun m n => do
    let i := start + k * n
    let values ← (List.range k).mapM fun e => do
      let s ← m.read scanline (i + e : ℕ)
      let p ← expect (i + e) m
      return s + p
    (List.range k).foldlM (fun m e => do
      let value ← values[e]?
      m.write recon (i + e : ℕ) value) m) m
  return (m, start + k * ((stop - start) / k))

/-- The choice of the unrolled loop by the distance of the bytes that depend on each other. -/
def unrolled (recon scanline : Pointer β) (expect : Expectation β) (bytewidth length : ℕ)
    (m : Memory β UInt8) : Option (Memory β UInt8 × ℕ) :=
  if bytewidth ≥ 4 then unrolledLoop 4 recon scanline expect bytewidth length m
  else if bytewidth ≥ 3 then unrolledLoop 3 recon scanline expect bytewidth length m
  else if bytewidth ≥ 2 then unrolledLoop 2 recon scanline expect bytewidth length m
  else some (m, bytewidth)

/-- Unfilter one line; `precon` is the line above. The number is the error. -/
def unfilterScanline (recon scanline : Pointer β) (precon : Option (Pointer β)) (bytewidth : ℕ)
    (filterType : UInt8) (length : ℕ) (m : Memory β UInt8) : Option (Memory β UInt8 × ℕ) :=
  match filterType.toNat, precon with
  | 0, _ => do
    let m ← addLoop recon scanline .nothing 0 length m
    return (m, 0)
  | 1, _ => do
    let m ← addLoop recon scanline .nothing 0 bytewidth m
    let m ← addLoop recon scanline (.left recon bytewidth) bytewidth length m
    return (m, 0)
  | 2, some precon => do
    let m ← addLoop recon scanline (.up precon) 0 length m
    return (m, 0)
  | 2, none => do
    let m ← addLoop recon scanline .nothing 0 length m
    return (m, 0)
  | 3, some precon => do
    let m ← addLoop recon scanline (.halfUp precon) 0 bytewidth m
    let (m, i) ← unrolled recon scanline (.averaged recon precon bytewidth) bytewidth length m
    let m ← addLoop recon scanline (.averaged recon precon bytewidth) i length m
    return (m, 0)
  | 3, none => do
    let m ← addLoop recon scanline .nothing 0 bytewidth m
    let m ← addLoop recon scanline (.halfLeft recon bytewidth) bytewidth length m
    return (m, 0)
  | 4, some precon => do
    let m ← addLoop recon scanline (.up precon) 0 bytewidth m
    let (m, i) ← unrolled recon scanline (.paeth recon precon bytewidth) bytewidth length m
    let m ← addLoop recon scanline (.paeth recon precon bytewidth) i length m
    return (m, 0)
  | 4, none => do
    let m ← addLoop recon scanline .nothing 0 bytewidth m
    let m ← addLoop recon scanline (.left recon bytewidth) bytewidth length m
    return (m, 0)
  | _, _ => some (m, 36)

end

/-! ### What a filter expects -/

/-- What the filter expects, from the byte to the left, the one above and the one between them. -/
def predictor (filterType : ℕ) (a b c : UInt8) : UInt8 :=
  match filterType with
  | 1 => a
  | 2 => b
  | 3 => average a b
  | 4 => paethPredictor a b c
  | _ => 0

lemma average_zero_left (b : UInt8) : average 0 b = b >>> 1 := by
  have hb := b.toNat_lt
  have hone : UInt8.toNat 1 % 8 = 1 := rfl
  apply UInt8.toNat_inj.mp
  rw [average, UInt8.toNat_shiftRight, hone, UInt8.toNat_ofNat', UInt8.toNat_zero, Nat.zero_add]
  simp only [Nat.shiftRight_eq_div_pow]
  omega

lemma average_zero_right (a : UInt8) : average a 0 = a >>> 1 := by
  rw [average, Nat.add_comm, ← average, average_zero_left]

/-- The smallest distance is that to `b`, or all are equal. -/
lemma paethPredictor_zero_left (b : UInt8) : paethPredictor 0 b 0 = b := by
  rcases Nat.eq_zero_or_pos b.toNat with hzero | hpos
  · have hb : b = 0 := UInt8.toNat_inj.mp hzero
    rw [hb]
    rfl
  · simp [paethPredictor, hpos]

lemma paethPredictor_zero_right (a : UInt8) : paethPredictor a 0 0 = a := by
  have hpos : ¬ (a.toNat : ℤ) < 0 := by omega
  simp [paethPredictor, hpos]

/-! ### One line -/

/-- The memory in front of a call for one line: `scanline` holds the filtered bytes `s` and
`precon` the bytes `u` above. The result may be written over `scanline`, or in front of it. -/
structure Line (recon scanline : Pointer β) (precon : Option (Pointer β)) (length : ℕ)
    (s u : ℕ → UInt8) (m₀ : Memory β UInt8) : Prop where
  inRange : m₀.InRange recon length
  filtered : ∀ x < length, m₀.read scanline x = some (s x)
  apart : scanline.block ≠ recon.block ∨ scanline.offset + length ≤ recon.offset ∨
    recon.offset ≤ scanline.offset
  above : ∀ p, precon = some p → (∀ x < length, m₀.read p x = some (u x)) ∧
    (p.block ≠ recon.block ∨ p.offset + length ≤ recon.offset ∨
      recon.offset + length ≤ p.offset)
  none_above : precon = none → ∀ x, u x = 0

/-- The first `n` bytes are written. -/
structure Written (recon : Pointer β) (r : ℕ → UInt8) (m₀ : Memory β UInt8) (n : ℕ)
    (m : Memory β UInt8) : Prop where
  read : ∀ x < n, m.read recon x = some (r x)
  frame : m₀.AgreesOutside recon n m

variable {recon scanline : Pointer β} {precon : Option (Pointer β)} {length n : ℕ}
  {s u r e : ℕ → UInt8} {m₀ m : Memory β UInt8}

lemma Written.filtered (h : Written recon r m₀ n m)
    (hline : Line recon scanline precon length s u m₀) {x : ℕ} (hn : n ≤ x) (hx : x < length) :
    m.read scanline x = some (s x) := by
  rw [h.frame.read_eq, hline.filtered x hx]
  have hapart := hline.apart
  refine hapart.imp id fun hapart => ?_
  omega

lemma Written.above {p : Pointer β} (h : Written recon r m₀ n m)
    (hline : Line recon scanline (some p) length s u m₀) (hn : n ≤ length) {x : ℕ}
    (hx : x < length) : m.read p x = some (u x) := by
  obtain ⟨habove, hapart⟩ := hline.above p rfl
  rw [h.frame.read_eq, habove x hx]
  refine hapart.imp id fun hapart => ?_
  omega

/-- The expectation is met for the bytes from `start` to `stop`, also up to `k` steps early. -/
def Meets (recon : Pointer β) (r : ℕ → UInt8) (m₀ : Memory β UInt8) (expect : Expectation β)
    (e : ℕ → UInt8) (start stop k : ℕ) : Prop :=
  ∀ i n m, start ≤ i → i < stop → n ≤ i → i < n + k → Written recon r m₀ n m →
    expect i m = some (e i)

lemma Meets.mono {expect : Expectation β} {start stop k start' k' : ℕ}
    (h : Meets recon r m₀ expect e start stop k) (hstart : start ≤ start') (hk : k' ≤ k) :
    Meets recon r m₀ expect e start' stop k' := fun i n m hi hi' hn hn' hm =>
  h i n m (by omega) hi' hn (by omega) hm

/-- The byte of the same line that the filter takes for the one to the left; 0 outside. -/
def before (bytewidth : ℕ) (f : ℕ → UInt8) (x : ℕ) : UInt8 :=
  if x < bytewidth then 0 else f (x - bytewidth)

section

variable {bytewidth : ℕ}

lemma before_of_lt {f : ℕ → UInt8} {x : ℕ} (hx : x < bytewidth) : before bytewidth f x = 0 :=
  if_pos hx

lemma before_of_le {f : ℕ → UInt8} {x : ℕ} (hx : bytewidth ≤ x) :
    before bytewidth f x = f (x - bytewidth) := if_neg (by omega)

lemma meets_nothing {start stop k : ℕ} :
    Meets recon r m₀ .nothing (fun _ => 0) start stop k := fun _ _ _ _ _ _ _ _ => rfl

lemma Written.read_left (h : Written recon r m₀ n m) {i : ℕ} (hi : bytewidth ≤ i)
    (hn : i < n + bytewidth) : m.read recon (i - bytewidth : ℕ) = some (r (i - bytewidth)) :=
  h.read _ (by omega)

lemma meets_left (stop : ℕ) :
    Meets recon r m₀ (.left recon bytewidth) (fun x => r (x - bytewidth)) bytewidth stop
      bytewidth :=
  fun _ _ _ hi _ _ hn h => h.read_left hi hn

lemma meets_halfLeft (stop : ℕ) :
    Meets recon r m₀ (.halfLeft recon bytewidth) (fun x => r (x - bytewidth) >>> 1) bytewidth stop
      bytewidth := by
  intro i n m hi _ _ hn h
  rw [Expectation.halfLeft, h.read_left hi hn]
  rfl

variable {p : Pointer β} (hline : Line recon scanline (some p) length s u m₀)

include hline

lemma meets_up {start stop k : ℕ} (hstop : stop ≤ length) :
    Meets recon r m₀ (.up p) u start stop k :=
  fun _ _ _ _ hi hn _ h => h.above hline (by omega) (by omega)

lemma meets_halfUp {start stop k : ℕ} (hstop : stop ≤ length) :
    Meets recon r m₀ (.halfUp p) (fun x => u x >>> 1) start stop k := by
  intro i n m _ hi hn _ h
  have habove := h.above hline (by omega) (show i < length by omega)
  rw [Expectation.halfUp, habove]
  rfl

lemma meets_averaged :
    Meets recon r m₀ (.averaged recon p bytewidth) (fun x => average (r (x - bytewidth)) (u x))
      bytewidth length bytewidth := by
  intro i n m hi hi' hn hn' h
  have habove := h.above hline (by omega) hi'
  rw [Expectation.averaged, h.read_left hi hn', habove]
  rfl

lemma meets_paeth :
    Meets recon r m₀ (.paeth recon p bytewidth)
      (fun x => paethPredictor (r (x - bytewidth)) (u x) (u (x - bytewidth)))
      bytewidth length bytewidth := by
  intro i n m hi hi' hn hn' h
  have habove := h.above hline (by omega) hi'
  have hupLeft := h.above hline (by omega) (show i - bytewidth < length by omega)
  rw [Expectation.paeth, h.read_left hi hn', habove, hupLeft]
  rfl

end

/-! ### The loops -/

section

variable [DecidableEq β]

lemma Written.write (h : Written recon r m₀ n m) (hrange : m₀.InRange recon length)
    (hn : n < length) :
    ∃ m', m.write recon n (r n) = some m' ∧ Written recon r m₀ (n + 1) m' := by
  obtain ⟨m', hwrite, hread, hframe⟩ := Memory.exists_write (h.frame.inRange hrange)
    (Nat.cast_nonneg n) (by exact_mod_cast hn) (r n)
  have hone : ∀ x, x < n → m'.read recon x = m.read recon x := by
    intro x hx
    refine hframe.read_eq (Or.inr ?_)
    simp only [Pointer.shift]
    omega
  refine ⟨m', hwrite, fun x hx => ?_, ?_⟩
  · rcases Nat.lt_succ_iff_lt_or_eq.mp hx with hlt | rfl
    · rw [hone x hlt, h.read x hlt]
    · exact hread
  · refine (h.frame.mono rfl le_rfl (by push_cast; omega)).trans (hframe.mono rfl ?_ ?_) <;>
      simp only [Pointer.shift] <;> push_cast <;> omega

variable (hline : Line recon scanline precon length s u m₀)

include hline

lemma addLoop_spec {expect : Expectation β} {start stop : ℕ} (hstart : start ≤ stop)
    (hstop : stop ≤ length) (hr : ∀ x, start ≤ x → x < stop → r x = s x + e x)
    (hmeets : Meets recon r m₀ expect e start stop 1) (h : Written recon r m₀ start m) :
    ∃ m', addLoop recon scanline expect start stop m = some m' ∧ Written recon r m₀ stop m' := by
  have hstep : ∀ n < stop - start, ∀ m, Written recon r m₀ (start + n) m →
      ∃ m', (do
        let s ← m.read scanline (start + n : ℕ)
        let e ← expect (start + n) m
        m.write recon (start + n : ℕ) (s + e)) = some m' ∧
        Written recon r m₀ (start + (n + 1)) m' := by
    intro n hn m h
    obtain ⟨m', hwrite, hnext⟩ := h.write hline.inRange (by omega)
    refine ⟨m', ?_, hnext⟩
    have hs := h.filtered hline le_rfl (show start + n < length by omega)
    have he := hmeets (start + n) (start + n) m (by omega) (by omega) le_rfl (by omega) h
    rw [hs, he, ← hwrite, hr (start + n) (by omega) (by omega)]
    rfl
  obtain ⟨m', hloop, hdone⟩ := Loops.exists_foldlM_range _ h hstep
  refine ⟨m', ?_, by rwa [Nat.add_sub_cancel' hstart] at hdone⟩
  rw [addLoop, if_pos hstart]
  exact hloop

/-- The steps of a turn do not depend on each other when the bytes they read are `k` or more
before those they write. -/
lemma unrolledLoop_spec {expect : Expectation β} {k start stop : ℕ} (hk : 0 < k)
    (hstop : stop ≤ length) (hr : ∀ x, start ≤ x → x < stop → r x = s x + e x)
    (hmeets : Meets recon r m₀ expect e start stop k) (h : Written recon r m₀ start m) :
    ∃ m', unrolledLoop k recon scanline expect start stop m
        = some (m', start + k * ((stop - start) / k)) ∧
      Written recon r m₀ (start + k * ((stop - start) / k)) m' := by
  have hturn : ∀ n < (stop - start) / k, ∀ m, Written recon r m₀ (start + k * n) m →
      ∃ m', (do
        let values ← (List.range k).mapM fun e => do
          let s ← m.read scanline (start + k * n + e : ℕ)
          let p ← expect (start + k * n + e) m
          return s + p
        (List.range k).foldlM (fun m e => do
          let value ← values[e]?
          m.write recon (start + k * n + e : ℕ) value) m) = some m' ∧
        Written recon r m₀ (start + k * (n + 1)) m' := by
    intro n hn m h
    have hroom : start + k * n + k ≤ stop := by
      have hle : k * (n + 1) ≤ stop - start :=
        (Nat.mul_le_mul_left k hn).trans (Nat.mul_div_le _ _)
      rw [Nat.mul_succ] at hle
      omega
    have hvalues : ((List.range k).mapM fun e => do
        let s ← m.read scanline (start + k * n + e : ℕ)
        let p ← expect (start + k * n + e) m
        return s + p) = some ((List.range k).map fun e => r (start + k * n + e)) := by
      refine Loops.mapM_eq_some fun e he => ?_
      have hek := List.mem_range.mp he
      have hs := h.filtered hline (show start + k * n ≤ start + k * n + e by omega) (by omega)
      have he := hmeets (start + k * n + e) (start + k * n) m (by omega) (by omega) (by omega)
        (by omega) h
      rw [hs, he, hr _ (by omega) (by omega)]
      rfl
    obtain ⟨m', hloop, hdone⟩ := Loops.exists_foldlM_range (n := k)
      (f := fun m e => do
        let value ← ((List.range k).map fun e => r (start + k * n + e))[e]?
        m.write recon (start + k * n + e : ℕ) value)
      (fun e m => Written recon r m₀ (start + k * n + e) m) h (by
        intro e he m h
        obtain ⟨m', hwrite, hnext⟩ := h.write hline.inRange (by omega)
        refine ⟨m', ?_, hnext⟩
        rw [List.getElem?_map, List.getElem?_range he]
        exact hwrite)
    refine ⟨m', ?_, by rwa [Nat.mul_succ, ← Nat.add_assoc]⟩
    rw [hvalues]
    exact hloop
  obtain ⟨m', hloop, hdone⟩ := Loops.exists_foldlM_range _ (by simpa using h) hturn
  exact ⟨m', Option.bind_eq_some_iff.mpr ⟨m', hloop, rfl⟩, hdone⟩

/-- The unrolled loop and the loop for the bytes that it leaves. -/
lemma unrolled_addLoop_spec {expect : Expectation β} {bytewidth : ℕ} (hbytewidth : 0 < bytewidth)
    (hfits : bytewidth ≤ length) (hr : ∀ x, bytewidth ≤ x → x < length → r x = s x + e x)
    (hmeets : Meets recon r m₀ expect e bytewidth length bytewidth)
    (h : Written recon r m₀ bytewidth m) :
    ∃ m₁ i m₂, unrolled recon scanline expect bytewidth length m = some (m₁, i) ∧
      addLoop recon scanline expect i length m₁ = some m₂ ∧ Written recon r m₀ length m₂ := by
  have hrest : ∀ m i, bytewidth ≤ i → i ≤ length → Written recon r m₀ i m →
      ∃ m', addLoop recon scanline expect i length m = some m' ∧
        Written recon r m₀ length m' := fun m i hi hi' h =>
    addLoop_spec hline hi' le_rfl (fun x hx => hr x (hi.trans hx)) (hmeets.mono hi hbytewidth) h
  have hunrolled : ∀ k, 0 < k → k ≤ bytewidth →
      ∃ m₁ i m₂, unrolledLoop k recon scanline expect bytewidth length m = some (m₁, i) ∧
        addLoop recon scanline expect i length m₁ = some m₂ ∧ Written recon r m₀ length m₂ := by
    intro k hk hle
    obtain ⟨m₁, hloop, h₁⟩ := unrolledLoop_spec hline hk le_rfl hr (hmeets.mono le_rfl hle) h
    have hend := Nat.mul_div_le (length - bytewidth) k
    obtain ⟨m₂, hlast, h₂⟩ := hrest m₁ _ (Nat.le_add_right _ _) (by omega) h₁
    exact ⟨m₁, _, m₂, hloop, hlast, h₂⟩
  rw [unrolled]
  split_ifs with h4 h3 h2
  · exact hunrolled 4 (by decide) h4
  · exact hunrolled 3 (by decide) h3
  · exact hunrolled 2 (by decide) h2
  · obtain ⟨m', hlast, h'⟩ := hrest m bytewidth le_rfl hfits h
    exact ⟨m, bytewidth, m', rfl, hlast, h'⟩

section

variable {expect₁ expect₂ : Expectation β} {e₁ e₂ : ℕ → UInt8} {bytewidth : ℕ}

lemma oneLoop_spec (hr : ∀ x < length, r x = s x + e x)
    (hmeets : Meets recon r m₀ expect₁ e 0 length 1) (h : Written recon r m₀ 0 m) :
    ∃ m', (do
        let m ← addLoop recon scanline expect₁ 0 length m
        return (m, 0)) = some (m', (0 : ℕ)) ∧ Written recon r m₀ length m' := by
  obtain ⟨m', hrun, h'⟩ :=
    addLoop_spec hline (Nat.zero_le _) le_rfl (fun x _ => hr x) hmeets h
  refine ⟨m', ?_, h'⟩
  rw [hrun]
  rfl

lemma twoLoops_spec (hfits : bytewidth ≤ length) (hr₁ : ∀ x < bytewidth, r x = s x + e₁ x)
    (hmeets₁ : Meets recon r m₀ expect₁ e₁ 0 bytewidth 1)
    (hr₂ : ∀ x, bytewidth ≤ x → x < length → r x = s x + e₂ x)
    (hmeets₂ : Meets recon r m₀ expect₂ e₂ bytewidth length 1) (h : Written recon r m₀ 0 m) :
    ∃ m', (do
        let m ← addLoop recon scanline expect₁ 0 bytewidth m
        let m ← addLoop recon scanline expect₂ bytewidth length m
        return (m, 0)) = some (m', (0 : ℕ)) ∧ Written recon r m₀ length m' := by
  obtain ⟨m₁, hfirst, h₁⟩ :=
    addLoop_spec hline (Nat.zero_le _) hfits (fun x _ => hr₁ x) hmeets₁ h
  obtain ⟨m₂, hsecond, h₂⟩ := addLoop_spec hline hfits le_rfl hr₂ hmeets₂ h₁
  refine ⟨m₂, ?_, h₂⟩
  rw [hfirst, Option.bind_eq_bind, Option.bind_some, hsecond]
  rfl

/-- With the line above, the second loop is unrolled. -/
lemma twoLoops_unrolled_spec (hbytewidth : 0 < bytewidth) (hfits : bytewidth ≤ length)
    (hr₁ : ∀ x < bytewidth, r x = s x + e₁ x)
    (hmeets₁ : Meets recon r m₀ expect₁ e₁ 0 bytewidth 1)
    (hr₂ : ∀ x, bytewidth ≤ x → x < length → r x = s x + e₂ x)
    (hmeets₂ : Meets recon r m₀ expect₂ e₂ bytewidth length bytewidth)
    (h : Written recon r m₀ 0 m) :
    ∃ m', (do
        let m ← addLoop recon scanline expect₁ 0 bytewidth m
        let (m, i) ← unrolled recon scanline expect₂ bytewidth length m
        let m ← addLoop recon scanline expect₂ i length m
        return (m, 0)) = some (m', (0 : ℕ)) ∧ Written recon r m₀ length m' := by
  obtain ⟨m₁, hfirst, h₁⟩ :=
    addLoop_spec hline (Nat.zero_le _) hfits (fun x _ => hr₁ x) hmeets₁ h
  obtain ⟨m₂, i, m₃, hsecond, hthird, h₃⟩ :=
    unrolled_addLoop_spec hline hbytewidth hfits hr₂ hmeets₂ h₁
  refine ⟨m₃, ?_, h₃⟩
  refine Option.bind_eq_some_iff.mpr ⟨m₁, hfirst, ?_⟩
  refine Option.bind_eq_some_iff.mpr ⟨(m₂, i), hsecond, ?_⟩
  exact Option.bind_eq_some_iff.mpr ⟨m₃, hthird, rfl⟩

end

end

section

variable [DecidableEq β] {bytewidth : ℕ} {filterType : UInt8}

lemma unfilterScanline_invalid (htype : 4 < filterType.toNat) :
    unfilterScanline recon scanline precon bytewidth filterType length m = some (m, 36) := by
  unfold unfilterScanline
  split <;> first | omega | rfl

/-- Every filter adds what it expects, whichever loops it takes. -/
lemma unfilterScanline_spec (hline : Line recon scanline precon length s u m₀)
    (hbytewidth : 0 < bytewidth) (hfits : bytewidth ≤ length) (htype : filterType.toNat ≤ 4)
    (hr : ∀ x < length, r x = s x +
      predictor filterType.toNat (before bytewidth r x) (u x) (before bytewidth u x)) :
    ∃ m', unfilterScanline recon scanline precon bytewidth filterType length m₀ = some (m', 0) ∧
      Written recon r m₀ length m' := by
  have h₀ : Written recon r m₀ 0 m₀ :=
    ⟨fun x hx => absurd hx (Nat.not_lt_zero x), .refl _ _ _⟩
  have hhead : ∀ x < bytewidth, r x = s x + predictor filterType.toNat 0 (u x) 0 := by
    intro x hx
    have hx' := hr x (hx.trans_le hfits)
    rwa [before_of_lt hx, before_of_lt hx] at hx'
  have htail : ∀ x, bytewidth ≤ x → x < length → r x = s x +
      predictor filterType.toNat (r (x - bytewidth)) (u x) (u (x - bytewidth)) := by
    intro x hx hx'
    have hx' := hr x hx'
    rwa [before_of_le hx, before_of_le hx] at hx'
  unfold unfilterScanline
  generalize filterType.toNat = t at *
  rcases precon with _ | p
  · -- Without a line above, the bytes above are 0.
    have hnone := hline.none_above rfl
    interval_cases t
    · exact oneLoop_spec hline hr meets_nothing h₀
    · exact twoLoops_spec hline hfits hhead meets_nothing htail
        ((meets_left length).mono le_rfl hbytewidth) h₀
    · refine oneLoop_spec hline (fun x hx => ?_) meets_nothing h₀
      rw [hr x hx, predictor, hnone]
    · refine twoLoops_spec hline hfits (fun x hx => ?_) meets_nothing (fun x hx hx' => ?_)
        ((meets_halfLeft length).mono le_rfl hbytewidth) h₀
      · rw [hhead x hx, predictor, hnone]
        rfl
      · rw [htail x hx hx', predictor, hnone, average_zero_right]
    · refine twoLoops_spec hline hfits (fun x hx => ?_) meets_nothing (fun x hx hx' => ?_)
        ((meets_left length).mono le_rfl hbytewidth) h₀
      · rw [hhead x hx, predictor, hnone]
        rfl
      · rw [htail x hx hx', predictor, hnone, hnone, paethPredictor_zero_right]
  · interval_cases t
    · exact oneLoop_spec hline hr meets_nothing h₀
    · exact twoLoops_spec hline hfits hhead meets_nothing htail
        ((meets_left length).mono le_rfl hbytewidth) h₀
    · exact oneLoop_spec hline hr (meets_up hline le_rfl) h₀
    · refine twoLoops_unrolled_spec hline hbytewidth hfits (fun x hx => ?_)
        (meets_halfUp hline hfits) htail (meets_averaged hline) h₀
      rw [hhead x hx, predictor, average_zero_left]
    · refine twoLoops_unrolled_spec hline hbytewidth hfits (fun x hx => ?_)
        (meets_up hline hfits) htail (meets_paeth hline) h₀
      rw [hhead x hx, predictor, paethPredictor_zero_left]

end

end lodepng

end VioFrontend
