import VioFrontend.Lodepng.Unfilter

/-!
# Filtering an image and back

`filter` chooses a type for every line of an image and writes the differences to what the filter
expects. The type is given by the strategy: the same for all lines, one for each line, or the one
whose result has the best score of the five. Whichever it is, the lines are those that `unfilter`
reads, and the bytes of the image come back.
-/

namespace VioFrontend

open Checked

namespace lodepng

variable {β : Type}

/-! ### The code -/

section

variable [DecidableEq β]

/-- `for(i = start; i < stop; ++i) out[i] = scanline[i] - ...`. -/
def subtractLoop (out scanline : Pointer β) (expect : Expectation β) (start stop : ℕ)
    (m : Memory β UInt8) : Option (Memory β UInt8) :=
  (List.range (stop - start)).foldlM (fun m n => do
    let s ← m.read scanline (start + n : ℕ)
    let e ← expect (start + n) m
    m.write out (start + n : ℕ) (s - e)) m

/-- Filter one line; nothing is written if the type is invalid. The bytes to the left are those of
the line itself. -/
def filterScanline (out scanline : Pointer β) (prevline : Option (Pointer β))
    (length bytewidth : ℕ) (filterType : UInt8) (m : Memory β UInt8) :
    Option (Memory β UInt8) :=
  match filterType.toNat, prevline with
  | 0, _ => subtractLoop out scanline .nothing 0 length m
  | 1, _ => do
    let m ← subtractLoop out scanline .nothing 0 bytewidth m
    subtractLoop out scanline (.left scanline bytewidth) bytewidth length m
  | 2, some prevline => subtractLoop out scanline (.up prevline) 0 length m
  | 2, none => subtractLoop out scanline .nothing 0 length m
  | 3, some prevline => do
    let m ← subtractLoop out scanline (.halfUp prevline) 0 bytewidth m
    subtractLoop out scanline (.averaged scanline prevline bytewidth) bytewidth length m
  | 3, none => do
    let m ← subtractLoop out scanline .nothing 0 bytewidth m
    subtractLoop out scanline (.halfLeft scanline bytewidth) bytewidth length m
  | 4, some prevline => do
    let m ← subtractLoop out scanline (.up prevline) 0 bytewidth m
    subtractLoop out scanline (.paeth scanline prevline bytewidth) bytewidth length m
  | 4, none => do
    let m ← subtractLoop out scanline .nothing 0 bytewidth m
    subtractLoop out scanline (.left scanline bytewidth) bytewidth length m
  | _, _ => some m

/-- A line whose type is given. -/
def givenLine (out input : Pointer β) (linebytes bytewidth : ℕ) (types : ℕ → UInt8) (y : ℕ)
    (prevline : Option (Pointer β)) (m : Memory β UInt8) : Option (Memory β UInt8) := do
  let outindex := (1 + linebytes) * y
  let inindex := linebytes * y
  let m ← m.write out outindex (types y)
  filterScanline (out.shift (outindex + 1 : ℕ)) (input.shift inindex) prevline linebytes bytewidth
    (types y) m

/-- A line whose type is chosen by the scores of the five attempts. -/
def adaptiveLine (attempt : ℕ → Pointer β) (score : ℕ → List UInt8 → ℕ) (better : ℕ → ℕ → Bool)
    (out input : Pointer β) (linebytes bytewidth y : ℕ) (prevline : Option (Pointer β))
    (m : Memory β UInt8) : Option (Memory β UInt8) := do
  let (m, bestType, _) ← (List.range 5).foldlM (fun (m, bestType, best) type => do
    let m ← filterScanline (attempt type) (input.shift (y * linebytes : ℕ)) prevline linebytes
      bytewidth (UInt8.ofNat type) m
    let bytes ← (List.range linebytes).mapM fun (x : ℕ) => m.read (attempt type) x
    let sum := score type bytes
    if type = 0 ∨ better sum best then return (m, type, sum)
    else return (m, bestType, best)) (m, 0, 0)
  let m ← m.write out (y * (linebytes + 1) : ℕ) (UInt8.ofNat bestType)
  (List.range linebytes).foldlM (fun m (x : ℕ) => do
    let value ← m.read (attempt bestType) x
    m.write out (y * (linebytes + 1) + 1 + x : ℕ) value) m

/-- The lines from `y` on, `n` of them. -/
def filterLines (line : ℕ → Option (Pointer β) → Memory β UInt8 → Option (Memory β UInt8))
    (input : Pointer β) (linebytes : ℕ) :
    ℕ → ℕ → Option (Pointer β) → Memory β UInt8 → Option (Memory β UInt8)
  | 0, _, _, m            => some m
  | n + 1, y, prevline, m => do
    let m ← line y prevline m
    filterLines line input linebytes n (y + 1) (some (input.shift (linebytes * y : ℕ))) m

/-- `LodePNGFilterStrategy`. -/
inductive FilterStrategy
  | zero
  | one
  | two
  | three
  | four
  | minsum
  | entropy
  | bruteForce
  | predefined
deriving DecidableEq, Repr

/-- The settings that `filter` reads; `compressedSize` is the size of the result of
`zlib_compress` with the settings for it. -/
structure EncoderSettings where
  filterPaletteZero : Bool
  filterStrategy : FilterStrategy
  predefinedFilters : ℕ → UInt8
  compressedSize : List UInt8 → ℕ

/-- Differences are treated as signed. -/
def minsumScore (type : ℕ) (bytes : List UInt8) : ℕ :=
  if type = 0 then (bytes.map UInt8.toNat).sum
  else (bytes.map fun s => if s < 128 then s.toNat else 255 - s.toNat).sum

def ilog2 (i : ℕ) : ℕ :=
  let (result, i) := if i ≥ 65536 then (16, i >>> 16) else (0, i)
  let (result, i) := if i ≥ 256 then (result + 8, i >>> 8) else (result, i)
  let (result, i) := if i ≥ 16 then (result + 4, i >>> 4) else (result, i)
  let (result, i) := if i ≥ 4 then (result + 2, i >>> 2) else (result, i)
  if i ≥ 2 then result + 1 else result

def ilog2i (i : ℕ) : ℕ :=
  if i = 0 then 0 else i * ilog2 i + (i - 1 <<< ilog2 i) <<< 1

/-- The type itself is counted as a byte of the line. -/
def entropyScore (type : ℕ) (bytes : List UInt8) : ℕ :=
  ((List.range 256).map fun x => ilog2i ((UInt8.ofNat type :: bytes).count (UInt8.ofNat x))).sum

/-- The number is the error; `attempt` is `none` if there is no memory for the attempts. -/
def filter (out input : Pointer β) (w h : ℕ) (color : ColorMode) (settings : EncoderSettings)
    (attempt : Option (ℕ → Pointer β)) (m : Memory β UInt8) : Option (Memory β UInt8 × ℕ) :=
  let bpp := color.getBpp
  let linebytes := linebytes w bpp
  let bytewidth := bytewidth bpp
  let strategy :=
    if settings.filterPaletteZero ∧ (color.colortype = .palette ∨ color.bitdepth < 8) then .zero
    else settings.filterStrategy
  let lines line : Option (Memory β UInt8 × ℕ) := do
    let m ← filterLines line input linebytes h 0 none m
    return (m, 0)
  let given types := lines (givenLine out input linebytes bytewidth types)
  let adaptive score (better : ℕ → ℕ → Bool) :=
    match attempt with
    | none         => some (m, 83)
    | some attempt => lines (adaptiveLine attempt score better out input linebytes bytewidth)
  if bpp = 0 then some (m, 31)
  else
    match strategy with
    | .zero       => given fun _ => 0
    | .one        => given fun _ => 1
    | .two        => given fun _ => 2
    | .three      => given fun _ => 3
    | .four       => given fun _ => 4
    | .minsum     => adaptive minsumScore (· < ·)
    | .entropy    => adaptive entropyScore (· > ·)
    | .bruteForce => adaptive (fun _ bytes => settings.compressedSize bytes) (· < ·)
    | .predefined => given settings.predefinedFilters

end

/-! ### One line -/

/-- The memory in front of a call for one line: `scanline` holds the bytes `r` of the line and
`prevline` the bytes `u` above. -/
structure Unfiltered (out scanline : Pointer β) (prevline : Option (Pointer β)) (length : ℕ)
    (r u : ℕ → UInt8) (m₀ : Memory β UInt8) : Prop where
  inRange : m₀.InRange out length
  bytes : ∀ x < length, m₀.read scanline x = some (r x)
  apart : scanline.block ≠ out.block
  above : ∀ p, prevline = some p → (∀ x < length, m₀.read p x = some (u x)) ∧ p.block ≠ out.block
  none_above : prevline = none → ∀ x, u x = 0

variable {out scanline : Pointer β} {prevline : Option (Pointer β)} {length width n : ℕ}
  {d r u e : ℕ → UInt8} {m₀ m : Memory β UInt8}

section

variable (hline : Unfiltered out scanline prevline length r u m₀)

include hline

lemma Written.bytes (h : Written out d m₀ n m) {x : ℕ} (hx : x < length) :
    m.read scanline x = some (r x) := by
  rw [h.frame.read_eq (Or.inl hline.apart), hline.bytes x hx]

lemma meets_left_bytes :
    Meets out d m₀ (.left scanline width) (fun x => r (x - width)) width length 1 :=
  fun _ _ _ _ hi _ _ h => h.bytes hline (by omega)

lemma meets_halfLeft_bytes :
    Meets out d m₀ (.halfLeft scanline width) (fun x => r (x - width) >>> 1) width length 1 := by
  intro i n m _ hi _ _ h
  rw [Expectation.halfLeft, h.bytes hline (by omega)]
  rfl

end

section

variable {p : Pointer β} (hline : Unfiltered out scanline (some p) length r u m₀)

include hline

lemma Written.bytes_above (h : Written out d m₀ n m) {x : ℕ} (hx : x < length) :
    m.read p x = some (u x) := by
  obtain ⟨habove, hapart⟩ := hline.above p rfl
  rw [h.frame.read_eq (Or.inl hapart), habove x hx]

lemma meets_up_bytes {start stop : ℕ} (hstop : stop ≤ length) :
    Meets out d m₀ (.up p) u start stop 1 :=
  fun _ _ _ _ hi _ _ h => h.bytes_above hline (by omega)

lemma meets_halfUp_bytes {start stop : ℕ} (hstop : stop ≤ length) :
    Meets out d m₀ (.halfUp p) (fun x => u x >>> 1) start stop 1 := by
  intro i n m _ hi _ _ h
  rw [Expectation.halfUp, h.bytes_above hline (by omega)]
  rfl

lemma meets_averaged_bytes :
    Meets out d m₀ (.averaged scanline p width) (fun x => average (r (x - width)) (u x)) width
      length 1 := by
  intro i n m _ hi _ _ h
  rw [Expectation.averaged, h.bytes hline (by omega), h.bytes_above hline hi]
  rfl

lemma meets_paeth_bytes :
    Meets out d m₀ (.paeth scanline p width)
      (fun x => paethPredictor (r (x - width)) (u x) (u (x - width))) width length 1 := by
  intro i n m _ hi _ _ h
  have hupLeft := h.bytes_above hline (show i - width < length by omega)
  rw [Expectation.paeth, h.bytes hline (by omega), h.bytes_above hline hi, hupLeft]
  rfl

end

section

variable [DecidableEq β] (hline : Unfiltered out scanline prevline length r u m₀)

include hline

lemma subtractLoop_spec {expect : Expectation β} {start stop : ℕ} (hstart : start ≤ stop)
    (hstop : stop ≤ length) (hd : ∀ x, start ≤ x → x < stop → d x = r x - e x)
    (hmeets : Meets out d m₀ expect e start stop 1) (h : Written out d m₀ start m) :
    ∃ m', subtractLoop out scanline expect start stop m = some m' ∧ Written out d m₀ stop m' := by
  have hstep : ∀ n < stop - start, ∀ m, Written out d m₀ (start + n) m →
      ∃ m', (do
        let s ← m.read scanline (start + n : ℕ)
        let e ← expect (start + n) m
        m.write out (start + n : ℕ) (s - e)) = some m' ∧
        Written out d m₀ (start + (n + 1)) m' := by
    intro n hn m h
    obtain ⟨m', hwrite, hnext⟩ := h.write hline.inRange (by omega)
    refine ⟨m', ?_, hnext⟩
    have hs := h.bytes hline (show start + n < length by omega)
    have he := hmeets (start + n) (start + n) m (by omega) (by omega) le_rfl (by omega) h
    rw [hs, he, ← hwrite, hd (start + n) (by omega) (by omega)]
    rfl
  obtain ⟨m', hloop, hdone⟩ := Loops.exists_foldlM_range _ h hstep
  exact ⟨m', hloop, by rwa [Nat.add_sub_cancel' hstart] at hdone⟩

lemma twoSubtractLoops_spec {expect₁ expect₂ : Expectation β} {e₁ e₂ : ℕ → UInt8}
    (hfits : width ≤ length) (hd₁ : ∀ x < width, d x = r x - e₁ x)
    (hmeets₁ : Meets out d m₀ expect₁ e₁ 0 width 1)
    (hd₂ : ∀ x, width ≤ x → x < length → d x = r x - e₂ x)
    (hmeets₂ : Meets out d m₀ expect₂ e₂ width length 1) (h : Written out d m₀ 0 m) :
    ∃ m', (do
        let m ← subtractLoop out scanline expect₁ 0 width m
        subtractLoop out scanline expect₂ width length m) = some m' ∧
      Written out d m₀ length m' := by
  obtain ⟨m₁, hfirst, h₁⟩ :=
    subtractLoop_spec hline (Nat.zero_le _) hfits (fun x _ => hd₁ x) hmeets₁ h
  obtain ⟨m₂, hsecond, h₂⟩ := subtractLoop_spec hline hfits le_rfl hd₂ hmeets₂ h₁
  exact ⟨m₂, Option.bind_eq_some_iff.mpr ⟨m₁, hfirst, hsecond⟩, h₂⟩

end

section

variable [DecidableEq β] {filterType : UInt8}

lemma filterScanline_spec (hline : Unfiltered out scanline prevline length r u m₀)
    (hfits : width ≤ length) (htype : filterType.toNat ≤ 4)
    (hd : ∀ x < length, d x = r x -
      predictor filterType.toNat (before width r x) (u x) (before width u x)) :
    ∃ m', filterScanline out scanline prevline length width filterType m₀ = some m' ∧
      Written out d m₀ length m' := by
  have h₀ : Written out d m₀ 0 m₀ :=
    ⟨fun x hx => absurd hx (Nat.not_lt_zero x), .refl _ _ _⟩
  have hhead : ∀ x < width, d x = r x - predictor filterType.toNat 0 (u x) 0 := by
    intro x hx
    have hx' := hd x (hx.trans_le hfits)
    rwa [before_of_lt hx, before_of_lt hx] at hx'
  have htail : ∀ x, width ≤ x → x < length → d x = r x -
      predictor filterType.toNat (r (x - width)) (u x) (u (x - width)) := by
    intro x hx hx'
    have hx' := hd x hx'
    rwa [before_of_le hx, before_of_le hx] at hx'
  have hone : ∀ {expect : Expectation β} {e : ℕ → UInt8}, (∀ x < length, d x = r x - e x) →
      Meets out d m₀ expect e 0 length 1 →
      ∃ m', subtractLoop out scanline expect 0 length m₀ = some m' ∧
        Written out d m₀ length m' := fun he hmeets =>
    subtractLoop_spec hline (Nat.zero_le _) le_rfl (fun x _ => he x) hmeets h₀
  unfold filterScanline
  generalize filterType.toNat = t at *
  rcases prevline with _ | p
  · have hnone := hline.none_above rfl
    interval_cases t
    · exact hone hd meets_nothing
    · exact twoSubtractLoops_spec hline hfits hhead meets_nothing htail (meets_left_bytes hline) h₀
    · refine hone (fun x hx => ?_) meets_nothing
      rw [hd x hx, predictor, hnone]
    · refine twoSubtractLoops_spec hline hfits (fun x hx => ?_) meets_nothing
        (fun x hx hx' => ?_) (meets_halfLeft_bytes hline) h₀
      · rw [hhead x hx, predictor, hnone]
        rfl
      · rw [htail x hx hx', predictor, hnone, average_zero_right]
    · refine twoSubtractLoops_spec hline hfits (fun x hx => ?_) meets_nothing
        (fun x hx hx' => ?_) (meets_left_bytes hline) h₀
      · rw [hhead x hx, predictor, hnone]
        rfl
      · rw [htail x hx hx', predictor, hnone, hnone, paethPredictor_zero_right]
  · interval_cases t
    · exact hone hd meets_nothing
    · exact twoSubtractLoops_spec hline hfits hhead meets_nothing htail (meets_left_bytes hline) h₀
    · exact hone hd (meets_up_bytes hline le_rfl)
    · refine twoSubtractLoops_spec hline hfits (fun x hx => ?_) (meets_halfUp_bytes hline hfits)
        htail (meets_averaged_bytes hline) h₀
      rw [hhead x hx, predictor, average_zero_left]
    · refine twoSubtractLoops_spec hline hfits (fun x hx => ?_) (meets_up_bytes hline hfits)
        htail (meets_paeth_bytes hline) h₀
      rw [hhead x hx, predictor, paethPredictor_zero_left]

end

/-! ### The lines of an image -/

/-- The byte that the filter of type `t` leaves of byte `x` of line `y`. -/
def difference (t : UInt8) (width length : ℕ) (f : ℕ → UInt8) (y x : ℕ) : UInt8 :=
  f (length * y + x) - predictor t.toNat (before width (fun x => f (length * y + x)) x)
    (above length f y x) (before width (above length f y) x)

/-- The memory that the lines of an image are filtered in. -/
structure Source (out input : Pointer β) (f : ℕ → UInt8) (length h : ℕ) (m : Memory β UInt8) :
    Prop where
  bytes : ∀ n < length * h, m.read input n = some (f n)
  inRange : m.InRange out ((1 + length) * h : ℕ)
  apart : input.block ≠ out.block

/-- The first `n` lines are filtered. -/
def LinesFiltered (out : Pointer β) (types f : ℕ → UInt8) (width length n : ℕ)
    (m : Memory β UInt8) : Prop :=
  ∀ y < n, (types y).toNat ≤ 4 ∧ m.read out ((1 + length) * y : ℕ) = some (types y) ∧
    ∀ x < length, m.read out ((1 + length) * y + 1 + x : ℕ)
      = some (difference (types y) width length f y x)

/-- Line `y` is filtered with the type `t`; those before it are kept. -/
structure LineFiltered (out : Pointer β) (t : UInt8) (f : ℕ → UInt8) (width length y : ℕ)
    (m m' : Memory β UInt8) : Prop where
  valid : t.toNat ≤ 4
  type : m'.read out ((1 + length) * y : ℕ) = some t
  byte : ∀ x < length, m'.read out ((1 + length) * y + 1 + x : ℕ)
    = some (difference t width length f y x)
  kept : ∀ k < (1 + length) * y, m'.read out k = m.read out k

variable {input q : Pointer β} {f types : ℕ → UInt8} {t : UInt8} {h y k : ℕ}
  {m' : Memory β UInt8}

lemma Source.mono (hsource : Source out input f length h m) (hframe : m.AgreesOutside q k m')
    (hq : input.block ≠ q.block) : Source out input f length h m' where
  bytes n hn := by rw [hframe.read_eq (Or.inl hq), hsource.bytes n hn]
  inRange := hframe.inRange hsource.inRange
  apart := hsource.apart

lemma Source.unfiltered (hsource : Source out input f length h m) (hy : y < h)
    (hrange : m.InRange q length) (hq : input.block ≠ q.block)
    (hprevline : prevline = if y = 0 then none else some (input.shift (length * (y - 1) : ℕ))) :
    Unfiltered q (input.shift (length * y : ℕ)) prevline length (fun x => f (length * y + x))
      (above length f y) m where
  inRange := hrange
  bytes := by
    intro x hx
    have hrow := mul_add_le length hy
    rw [read_shift, hsource.bytes _ (by omega)]
  apart := hq
  above := by
    rintro p rfl
    rcases y with _ | y
    · cases hprevline
    · obtain rfl := Option.some.inj hprevline
      refine ⟨fun x hx => ?_, hq⟩
      have hrow := mul_add_le length hy
      rw [Nat.mul_succ] at hrow
      rw [read_shift, Nat.add_sub_cancel, hsource.bytes _ (by omega), above]
  none_above := by
    rintro rfl x
    rcases y with _ | y
    · rfl
    · cases hprevline

lemma LinesFiltered.step (hlines : LinesFiltered out types f width length y m)
    (hline : LineFiltered out t f width length y m m') :
    LinesFiltered out (Function.update types y t) f width length (y + 1) m' := by
  intro y' hy'
  rcases Nat.lt_succ_iff_lt_or_eq.mp hy' with hlt | rfl
  · obtain ⟨hvalid, htype, hbyte⟩ := hlines y' hlt
    have hrow := mul_add_le (1 + length) hlt
    rw [Function.update_of_ne hlt.ne]
    refine ⟨hvalid, ?_, fun x hx => ?_⟩
    · rw [hline.kept _ (by omega), htype]
    · rw [hline.kept _ (by omega), hbyte x hx]
  · rw [Function.update_self]
    exact ⟨hline.valid, hline.type, hline.byte⟩

/-- The rule for the lines of an image: the types are found on the way. -/
lemma filterLines_spec {line : ℕ → Option (Pointer β) → Memory β UInt8 → Option (Memory β UInt8)}
    (P : Memory β UInt8 → Prop)
    (hline : ∀ y < h, ∀ prevline m, P m →
      (prevline = if y = 0 then none else some (input.shift (length * (y - 1) : ℕ))) →
      ∃ t m', line y prevline m = some m' ∧ LineFiltered out t f width length y m m' ∧ P m') :
    ∀ n y prevline m types, y + n = h → P m →
      (prevline = if y = 0 then none else some (input.shift (length * (y - 1) : ℕ))) →
      LinesFiltered out types f width length y m →
      ∃ types m', filterLines line input length n y prevline m = some m' ∧
        LinesFiltered out types f width length h m' ∧ P m' := by
  intro n
  induction n with
  | zero =>
    intro y prevline m types hn hm _ hlines
    obtain rfl : y = h := hn
    exact ⟨types, m, rfl, hlines, hm⟩
  | succ n ih =>
    intro y prevline m types hn hm hprevline hlines
    obtain ⟨t, m₁, hrun, hfiltered, hm₁⟩ := hline y (by omega) prevline m hm hprevline
    obtain ⟨types', m₂, hrest, hall⟩ :=
      ih (y + 1) _ m₁ _ (by omega) hm₁ rfl (hlines.step hfiltered)
    refine ⟨types', m₂, ?_, hall⟩
    rw [filterLines, hrun]
    exact hrest

/-- The bytes of line `y` are written behind its type. -/
lemma lineFiltered_of_written {m₁ m₂ : Memory β UInt8} (hvalid : t.toNat ≤ 4)
    (htype : m₁.read out ((1 + length) * y : ℕ) = some t)
    (hkept : ∀ k < (1 + length) * y, m₁.read out k = m.read out k)
    (hwritten : Written (out.shift ((1 + length) * y + 1 : ℕ)) (difference t width length f y) m₁
      length m₂) : LineFiltered out t f width length y m m₂ := by
  have hfront : ∀ k < (1 + length) * y + 1, m₂.read out k = m₁.read out k := by
    intro k hk
    refine hwritten.frame.read_eq (Or.inr (Or.inl ?_))
    simp only [Pointer.shift]
    omega
  refine ⟨hvalid, ?_, fun x hx => ?_, fun k hk => ?_⟩
  · rw [hfront _ (by omega), htype]
  · rw [← read_shift, hwritten.read x hx]
  · rw [hfront k (by omega), hkept k hk]

lemma Source.inRange_line (hsource : Source out input f length h m) (hy : y < h) :
    m.InRange (out.shift ((1 + length) * y + 1 : ℕ)) length := by
  obtain ⟨hlow, hhigh⟩ := hsource.inRange
  have hrow := mul_add_le (1 + length) hy
  have hpos := Int.natCast_nonneg ((1 + length) * y)
  refine ⟨?_, ?_⟩ <;> simp only [Pointer.shift] <;> omega

/-- The buffers of the five attempts are apart from each other and from the image. -/
structure Attempts (out input : Pointer β) (attempt : ℕ → Pointer β) (length : ℕ)
    (m : Memory β UInt8) : Prop where
  inRange : ∀ i < 5, m.InRange (attempt i) length
  injective : ∀ i < 5, ∀ j < 5, (attempt i).block = (attempt j).block → i = j
  out_ne : ∀ i < 5, out.block ≠ (attempt i).block
  input_ne : ∀ i < 5, input.block ≠ (attempt i).block

lemma Attempts.mono {attempt : ℕ → Pointer β} {k : ℤ}
    (hattempts : Attempts out input attempt length m) (hframe : m.AgreesOutside q k m') :
    Attempts out input attempt length m' :=
  { hattempts with inRange := fun i hi => hframe.inRange (hattempts.inRange i hi) }

/-- The first `i` attempts at line `y` are made; `out` is as it was. -/
structure Attempted (out : Pointer β) (attempt : ℕ → Pointer β) (f : ℕ → UInt8)
    (width length y i : ℕ) (m m' : Memory β UInt8) : Prop where
  byte : ∀ j < i, ∀ x < length,
    m'.read (attempt j) x = some (difference (UInt8.ofNat j) width length f y x)
  kept : ∀ k : ℕ, m'.read out k = m.read out k

variable {attempt : ℕ → Pointer β}

lemma Attempted.step {i : ℕ} {m₁ m₂ : Memory β UInt8}
    (hattempted : Attempted out attempt f width length y i m m₁)
    (hattempts : Attempts out input attempt length m₁) (hi : i < 5)
    (hwritten : Written (attempt i) (difference (UInt8.ofNat i) width length f y) m₁ length m₂) :
    Attempted out attempt f width length y (i + 1) m m₂ where
  byte := by
    intro j hj x hx
    rcases Nat.lt_succ_iff_lt_or_eq.mp hj with hlt | rfl
    · rw [hwritten.frame.read_eq (Or.inl fun hblock => ?_), hattempted.byte j hlt x hx]
      exact hlt.ne (hattempts.injective j (by omega) i hi hblock)
    · exact hwritten.read x hx
  kept := by
    intro k
    rw [hwritten.frame.read_eq (Or.inl (hattempts.out_ne i hi)), hattempted.kept k]

section

variable [DecidableEq β]

/-- The type of line `y` is written in front of it. -/
lemma Source.write_type (hsource : Source out input f length h m) (hy : y < h) (t : UInt8) :
    ∃ m', m.write out ((1 + length) * y : ℕ) t = some m' ∧ Source out input f length h m' ∧
      m'.read out ((1 + length) * y : ℕ) = some t ∧
      m.AgreesOutside (out.shift ((1 + length) * y : ℕ)) 1 m' := by
  have hrow := mul_add_le (1 + length) hy
  obtain ⟨m', hwrite, hread, hframe⟩ := Memory.exists_write hsource.inRange
    (Int.natCast_nonneg ((1 + length) * y)) (by exact_mod_cast (by omega)) t
  exact ⟨m', hwrite, hsource.mono hframe hsource.apart, hread, hframe⟩

lemma givenLine_spec (hfits : width ≤ length) (hy : y < h) (hvalid : (types y).toNat ≤ 4)
    (hsource : Source out input f length h m)
    (hprevline : prevline = if y = 0 then none else some (input.shift (length * (y - 1) : ℕ))) :
    ∃ m', givenLine out input length width types y prevline m = some m' ∧
      LineFiltered out (types y) f width length y m m' ∧ Source out input f length h m' := by
  obtain ⟨m₁, hwrite, hsource₁, htype, hframe⟩ := hsource.write_type hy (types y)
  obtain ⟨m₂, hrun, hwritten⟩ := filterScanline_spec
    (hsource₁.unfiltered hy (hsource₁.inRange_line hy) hsource.apart hprevline) hfits hvalid
    (d := difference (types y) width length f y) (fun x _ => rfl)
  refine ⟨m₂, Option.bind_eq_some_iff.mpr ⟨m₁, hwrite, hrun⟩,
    lineFiltered_of_written hvalid htype (fun k hk => ?_) hwritten,
    hsource₁.mono hwritten.frame hsource.apart⟩
  refine hframe.read_eq (Or.inr (Or.inl ?_))
  simp only [Pointer.shift]
  omega

/-- The best of the five attempts is copied, whatever the scores are. -/
lemma adaptiveLine_spec (score : ℕ → List UInt8 → ℕ) (better : ℕ → ℕ → Bool)
    (hfits : width ≤ length) (hy : y < h) (hsource : Source out input f length h m)
    (hattempts : Attempts out input attempt length m)
    (hprevline : prevline = if y = 0 then none else some (input.shift (length * (y - 1) : ℕ))) :
    ∃ t m', adaptiveLine attempt score better out input length width y prevline m = some m' ∧
      LineFiltered out t f width length y m m' ∧ Source out input f length h m' ∧
      Attempts out input attempt length m' := by
  have hin : y * length = length * y := Nat.mul_comm _ _
  have hout : y * (length + 1) = (1 + length) * y := by ring
  have hattempt : ∀ i < 5, ∀ s : Memory β UInt8 × ℕ × ℕ,
      (Source out input f length h s.1 ∧ Attempts out input attempt length s.1 ∧
        Attempted out attempt f width length y i m s.1 ∧ (i = 0 ∨ s.2.1 < i)) →
      ∃ s', (do
        let m ← filterScanline (attempt i) (input.shift (y * length : ℕ)) prevline length width
          (UInt8.ofNat i) s.1
        let bytes ← (List.range length).mapM fun (x : ℕ) => m.read (attempt i) x
        let sum := score i bytes
        if i = 0 ∨ better sum s.2.2 then return (m, i, sum)
        else return (m, s.2.1, s.2.2)) = some s' ∧
        Source out input f length h s'.1 ∧ Attempts out input attempt length s'.1 ∧
          Attempted out attempt f width length y (i + 1) m s'.1 ∧ (i + 1 = 0 ∨ s'.2.1 < i + 1) := by
    rintro i hi ⟨m₁, bestType, best⟩ ⟨hsource₁, hattempts₁, hattempted, hbest⟩
    have htype : (UInt8.ofNat i).toNat ≤ 4 := by
      rw [UInt8.toNat_ofNat']
      omega
    obtain ⟨m₂, hrun, hwritten⟩ := filterScanline_spec
      (hsource₁.unfiltered hy (hattempts₁.inRange i hi) (hattempts₁.input_ne i hi) hprevline)
      hfits htype (d := difference (UInt8.ofNat i) width length f y) (fun x _ => rfl)
    have hbytes : ((List.range length).mapM fun (x : ℕ) => m₂.read (attempt i) x)
        = some ((List.range length).map (difference (UInt8.ofNat i) width length f y)) :=
      Loops.mapM_eq_some fun x hx => hwritten.read x (List.mem_range.mp hx)
    have hsource₂ := hsource₁.mono hwritten.frame (hattempts₁.input_ne i hi)
    have hattempts₂ := hattempts₁.mono hwritten.frame
    have hattempted₂ := hattempted.step hattempts₁ hi hwritten
    rw [hin, hrun, Option.bind_eq_bind, Option.bind_some, hbytes, Option.bind_eq_bind,
      Option.bind_some]
    by_cases hif : i = 0 ∨ better (score i ((List.range length).map
        (difference (UInt8.ofNat i) width length f y))) best
    · exact ⟨_, if_pos hif, hsource₂, hattempts₂, hattempted₂, Or.inr (Nat.lt_succ_self i)⟩
    · refine ⟨_, if_neg hif, hsource₂, hattempts₂, hattempted₂, Or.inr ?_⟩
      exact (hbest.resolve_left fun hzero => hif (Or.inl hzero)).trans (Nat.lt_succ_self i)
  obtain ⟨⟨m₁, bestType, best⟩, hloop, hsource₁, hattempts₁, hattempted, hbest⟩ :=
    Loops.exists_foldlM_range (s := (m, 0, 0))
      (fun i s => Source out input f length h s.1 ∧ Attempts out input attempt length s.1 ∧
        Attempted out attempt f width length y i m s.1 ∧ (i = 0 ∨ s.2.1 < i))
      ⟨hsource, hattempts, ⟨fun j hj => absurd hj (Nat.not_lt_zero j), fun _ => rfl⟩, Or.inl rfl⟩
      hattempt
  have hbest : bestType < 5 := hbest.resolve_left (by decide)
  obtain ⟨m₂, hwrite, hsource₂, htype, hframe⟩ := hsource₁.write_type hy (UInt8.ofNat bestType)
  have hbyte : ∀ x < length, ∀ m, m₂.AgreesOutside (out.shift ((1 + length) * y + 1 : ℕ)) x m →
      m.read (attempt bestType) x
        = some (difference (UInt8.ofNat bestType) width length f y x) := by
    intro x hx m hm
    have hne : (attempt bestType).block ≠ out.block := (hattempts₁.out_ne bestType hbest).symm
    rw [hm.read_eq (Or.inl hne), hframe.read_eq (Or.inl hne), hattempted.byte bestType hbest x hx]
  obtain ⟨m₃, hcopy, hwritten⟩ := Loops.exists_foldlM_range (n := length)
    (f := fun m (x : ℕ) => do
      let value ← m.read (attempt bestType) x
      m.write out ((1 + length) * y + 1 + x : ℕ) value)
    (fun x m => Written (out.shift ((1 + length) * y + 1 : ℕ))
      (difference (UInt8.ofNat bestType) width length f y) m₂ x m)
    ⟨fun x hx => absurd hx (Nat.not_lt_zero x), .refl _ _ _⟩ (by
      intro x hx m hm
      obtain ⟨m', hwrite, hnext⟩ := hm.write (hsource₂.inRange_line hy) hx
      refine ⟨m', ?_, hnext⟩
      rw [hbyte x hx m hm.frame, ← hwrite, write_shift]
      rfl)
  refine ⟨UInt8.ofNat bestType, m₃, ?_, ?_, hsource₂.mono hwritten.frame hsource.apart,
    hattempts₁.mono hframe |>.mono hwritten.frame⟩
  · rw [adaptiveLine, hout]
    refine Option.bind_eq_some_iff.mpr ⟨(m₁, bestType, best), hloop, ?_⟩
    exact Option.bind_eq_some_iff.mpr ⟨m₂, hwrite, hcopy⟩
  · refine lineFiltered_of_written ?_ htype ?_ hwritten
    · rw [UInt8.toNat_ofNat']
      omega
    · intro k hk
      rw [← hattempted.kept k]
      refine hframe.read_eq (Or.inr (Or.inl ?_))
      simp only [Pointer.shift]
      omega

end

/-- The lines that are filtered are those that are read. -/
lemma LinesFiltered.filtered (hlines : LinesFiltered out types f width length h m)
    (hfits : width ≤ length) (hrange : m.InRange q (length * h : ℕ))
    (hapart : out.block ≠ q.block ∨ out.offset + ((1 + length) * h : ℕ) ≤ q.offset ∨
      q.offset ≤ out.offset) :
    Filtered q out types (Residuals.encode (expected types width length) f) length h m where
  type y hy := (hlines y hy).2.1
  byte y hy x hx := by
    rw [(hlines y hy).2.2 x hx, Residuals.encode, expected_line hx hfits, difference]
  inRange := hrange
  apart := hapart

section

variable [DecidableEq β]

/-- All lines are filtered, whichever strategy chooses their types. -/
lemma filter_spec {w : ℕ} {color : ColorMode} {settings : EncoderSettings} (hw : 0 < w)
    (hbpp : 0 < color.getBpp) (hsource : Source out input f (linebytes w color.getBpp) h m)
    (hattempts : Attempts out input attempt (linebytes w color.getBpp) m)
    (hpredefined : settings.filterStrategy = .predefined →
      ∀ y < h, (settings.predefinedFilters y).toNat ≤ 4) :
    ∃ types m', filter out input w h color settings (some attempt) m = some (m', 0) ∧
      LinesFiltered out types f (bytewidth color.getBpp) (linebytes w color.getBpp) h m' ∧
      Source out input f (linebytes w color.getBpp) h m' := by
  have hfits := bytewidth_le_linebytes color.getBpp hw
  have hnone : LinesFiltered out (fun _ => 0) f (bytewidth color.getBpp)
      (linebytes w color.getBpp) 0 m := fun y hy => absurd hy (Nat.not_lt_zero y)
  have hgiven : ∀ types : ℕ → UInt8, (∀ y < h, (types y).toNat ≤ 4) →
      ∃ types' m', (do
        let m ← filterLines (givenLine out input (linebytes w color.getBpp)
          (bytewidth color.getBpp) types) input (linebytes w color.getBpp) h 0 none m
        return (m, 0)) = some (m', (0 : ℕ)) ∧
        LinesFiltered out types' f (bytewidth color.getBpp) (linebytes w color.getBpp) h m' ∧
        Source out input f (linebytes w color.getBpp) h m' := by
    intro types hvalid
    obtain ⟨types', m', hrun, hlines, hsource'⟩ := filterLines_spec
      (Source out input f (linebytes w color.getBpp) h)
      (fun y hy prevline m hm hprevline =>
        ⟨types y, givenLine_spec hfits hy (hvalid y hy) hm hprevline⟩)
      h 0 none m _ (Nat.zero_add h) hsource rfl hnone
    refine ⟨types', m', ?_, hlines, hsource'⟩
    rw [hrun]
    rfl
  have hadaptive : ∀ score better,
      ∃ types' m', (do
        let m ← filterLines (adaptiveLine attempt score better out input
          (linebytes w color.getBpp) (bytewidth color.getBpp)) input (linebytes w color.getBpp) h 0
          none m
        return (m, 0)) = some (m', (0 : ℕ)) ∧
        LinesFiltered out types' f (bytewidth color.getBpp) (linebytes w color.getBpp) h m' ∧
        Source out input f (linebytes w color.getBpp) h m' := by
    intro score better
    obtain ⟨types', m', hrun, hlines, hsource', -⟩ := filterLines_spec
      (fun m => Source out input f (linebytes w color.getBpp) h m ∧
        Attempts out input attempt (linebytes w color.getBpp) m)
      (fun y hy prevline m hm hprevline =>
        adaptiveLine_spec score better hfits hy hm.1 hm.2 hprevline)
      h 0 none m _ (Nat.zero_add h) ⟨hsource, hattempts⟩ rfl hnone
    refine ⟨types', m', ?_, hlines, hsource'⟩
    rw [hrun]
    rfl
  unfold filter
  rw [if_neg hbpp.ne']
  split
  · exact hgiven _ fun _ _ => by decide
  · exact hgiven _ fun _ _ => by decide
  · exact hgiven _ fun _ _ => by decide
  · exact hgiven _ fun _ _ => by decide
  · exact hgiven _ fun _ _ => by decide
  · exact hadaptive _ _
  · exact hadaptive _ _
  · exact hadaptive _ _
  · rename_i hstrategy
    refine hgiven _ (hpredefined ?_)
    split_ifs at hstrategy
    exact hstrategy

/-- What is filtered is unfiltered to the bytes of the image, in place or elsewhere. -/
theorem unfilter_filter {w : ℕ} {color : ColorMode} {settings : EncoderSettings} (hw : 0 < w)
    (hbpp : 0 < color.getBpp) (hsource : Source out input f (linebytes w color.getBpp) h m)
    (hattempts : Attempts out input attempt (linebytes w color.getBpp) m)
    (hpredefined : settings.filterStrategy = .predefined →
      ∀ y < h, (settings.predefinedFilters y).toNat ≤ 4) :
    ∃ m₁, filter out input w h color settings (some attempt) m = some (m₁, 0) ∧
      ∀ q : Pointer β, q = out ∨ q.block ≠ out.block ∧
          m₁.InRange q (linebytes w color.getBpp * h : ℕ) →
        ∃ m₂, unfilter q out w h color.getBpp m₁ = some (m₂, 0) ∧
          ∀ n < linebytes w color.getBpp * h, m₂.read q n = some (f n) := by
  obtain ⟨types, m₁, hrun, hlines, hsource₁⟩ :=
    filter_spec hw hbpp hsource hattempts hpredefined
  refine ⟨m₁, hrun, fun q hq => ?_⟩
  have hfits := bytewidth_le_linebytes color.getBpp hw
  have hvalid : ∀ y < h, (types y).toNat ≤ 4 := fun y hy => (hlines y hy).1
  have hwidth := bytewidth_pos hbpp
  have hfiltered : Filtered q out types (Residuals.encode
      (expected types (bytewidth color.getBpp) (linebytes w color.getBpp)) f)
      (linebytes w color.getBpp) h m₁ := by
    rcases hq with rfl | ⟨hblock, hrange⟩
    · refine hlines.filtered hfits ?_ (Or.inr (Or.inr le_rfl))
      obtain ⟨hlow, hhigh⟩ := hsource₁.inRange
      rw [one_add_mul_eq] at hhigh
      exact ⟨hlow, by omega⟩
    · exact hlines.filtered hfits hrange (Or.inl (Ne.symm hblock))
  obtain ⟨m₂, hrun₂, hwritten⟩ := unfilterLines_spec hfiltered hwidth hfits
    (Residuals.decodes_encode f _) le_rfl hvalid (Or.inl rfl) h 0 none m₁ (Nat.zero_add h)
    (Nat.zero_le h) rfl ⟨fun n hn => absurd hn (Nat.not_lt_zero n), .refl _ _ _⟩
  refine ⟨m₂, ?_, hwritten.read⟩
  rw [unfilter, hrun₂, if_pos rfl]

end

/-- An image of four bytes in block 0, and room for its lines and the attempts. -/
def fourBytes : Memory ℕ UInt8 :=
  ⟨fun
    | 0     => ⟨4, fun k => [5, 11, 255, 8][k]?⟩
    | _ + 1 => ⟨6, fun _ => none⟩⟩

def greyscale : ColorMode := ⟨.grey, 8⟩

/-- The settings of `lodepng_encoder_settings_init`. -/
def minsumSettings : EncoderSettings := ⟨true, .minsum, fun _ => 0, List.length⟩

theorem unfilter_filter_fourBytes :
    ∃ m₁, filter ⟨1, 0⟩ ⟨0, 0⟩ 2 2 greyscale minsumSettings (some fun i => ⟨i + 2, 0⟩) fourBytes
        = some (m₁, 0) ∧
      ∀ q : Pointer ℕ, q = ⟨1, 0⟩ ∨ q.block ≠ 1 ∧
          m₁.InRange q (linebytes 2 greyscale.getBpp * 2 : ℕ) →
        ∃ m₂, unfilter q ⟨1, 0⟩ 2 2 greyscale.getBpp m₁ = some (m₂, 0) ∧
          ∀ n < linebytes 2 greyscale.getBpp * 2, m₂.read q n = some ([5, 11, 255, 8].getD n 0) :=
  unfilter_filter (by decide) (by decide)
    ⟨by decide, ⟨le_rfl, by decide⟩, by decide⟩
    ⟨fun i _ => ⟨le_rfl, show (0 : ℤ) + 2 ≤ 6 by decide⟩,
      fun i _ j _ hblock => Nat.add_right_cancel hblock,
      fun i _ => (show 1 ≠ i + 2 by omega), fun i _ => (show 0 ≠ i + 2 by omega)⟩
    (fun hstrategy => nomatch hstrategy)

end lodepng

end VioFrontend
