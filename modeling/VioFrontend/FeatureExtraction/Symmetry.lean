import VioFrontend.FeatureExtraction.Output

/-!
# Windows with the same features

Away from the margins it depends on the differences of intensities in the 9x9 window around a pixel
whether it is reported, and on nothing else. The window may lie elsewhere, in another image, may be
turned or mirrored, and all its differences may change their sign: the circle is mapped to itself,
arcs are mapped to arcs, and dark arcs count as much as bright ones.
-/

namespace VioFrontend

open CircularArc

/-! ### The symmetries of the circle -/

/-- One of the eight symmetries of a square: an exchange of the axes, followed by mirroring. -/
structure Symmetry where
  swap : Bool
  mirrorX : Bool
  mirrorY : Bool
  deriving DecidableEq, Fintype

namespace Symmetry

/-- Where a displacement from the centre is mapped to. -/
def act (g : Symmetry) (d : ℤ × ℤ) : ℤ × ℤ :=
  let d := if g.swap then (d.2, d.1) else d
  (if g.mirrorX then -d.1 else d.1, if g.mirrorY then -d.2 else d.2)

lemma act_add (g : Symmetry) (d d' : ℤ × ℤ) : g.act (d + d') = g.act d + g.act d' := by
  obtain ⟨swap, mirrorX, mirrorY⟩ := g
  obtain ⟨x, y⟩ := d
  obtain ⟨x', y'⟩ := d'
  cases swap <;> cases mirrorX <;> cases mirrorY <;> simp [act, add_comm]

lemma act_zero (g : Symmetry) : g.act 0 = 0 := by
  obtain ⟨swap, mirrorX, mirrorY⟩ := g
  cases swap <;> cases mirrorX <;> cases mirrorY <;> rfl

/-- The symmetry that goes back. -/
def symm (g : Symmetry) : Symmetry where
  swap := g.swap
  mirrorX := if g.swap then g.mirrorY else g.mirrorX
  mirrorY := if g.swap then g.mirrorX else g.mirrorY

@[simp] lemma act_symm (g : Symmetry) (d : ℤ × ℤ) : g.act (g.symm.act d) = d := by
  obtain ⟨swap, mirrorX, mirrorY⟩ := g
  cases swap <;> cases mirrorX <;> cases mirrorY <;> simp [act, symm]

/-- A displacement to one of the eight neighbours. -/
def IsNeighbour (d : ℤ × ℤ) : Prop :=
  ((-1 ≤ d.1 ∧ d.1 ≤ 1) ∧ (-1 ≤ d.2 ∧ d.2 ≤ 1)) ∧ ¬ (d.1 = 0 ∧ d.2 = 0)

lemma isNeighbour_act (g : Symmetry) {d : ℤ × ℤ} (h : IsNeighbour d) : IsNeighbour (g.act d) := by
  obtain ⟨swap, mirrorX, mirrorY⟩ := g
  cases swap <;> cases mirrorX <;> cases mirrorY <;> simp [act, IsNeighbour] at h ⊢ <;> omega

/-- A displacement along the circle by steps of `m`, checked on one turn. -/
lemma act_circleOffset_of_lt {g : Symmetry} {m r : ℕ}
    (h : ∀ k < 16, g.act (circleOffset k) = circleOffset (r + m * k)) (k : ℕ) :
    g.act (circleOffset k) = circleOffset (r + m * k) := by
  have hmod : r + m * k ≡ r + m * (k % 16) [MOD 16] :=
    ((Nat.mod_modEq k 16).symm.mul_left m).add_left r
  rw [apply_eq_of_modEq circleOffset_periodic (Nat.mod_modEq k 16).symm,
    apply_eq_of_modEq circleOffset_periodic hmod]
  exact h _ (Nat.mod_lt _ (by omega))

/-- The circle is turned, or it is read backwards. -/
lemma act_circleOffset (g : Symmetry) : ∃ r,
    (∀ k, g.act (circleOffset k) = circleOffset (r + 1 * k)) ∨
      ∀ k, g.act (circleOffset k) = circleOffset (r + 15 * k) := by
  obtain ⟨swap, mirrorX, mirrorY⟩ := g
  cases swap <;> cases mirrorX <;> cases mirrorY
  · exact ⟨0, Or.inl (act_circleOffset_of_lt (by decide))⟩
  · exact ⟨8, Or.inr (act_circleOffset_of_lt (by decide))⟩
  · exact ⟨0, Or.inr (act_circleOffset_of_lt (by decide))⟩
  · exact ⟨8, Or.inl (act_circleOffset_of_lt (by decide))⟩
  · exact ⟨4, Or.inr (act_circleOffset_of_lt (by decide))⟩
  · exact ⟨4, Or.inl (act_circleOffset_of_lt (by decide))⟩
  · exact ⟨12, Or.inl (act_circleOffset_of_lt (by decide))⟩
  · exact ⟨12, Or.inr (act_circleOffset_of_lt (by decide))⟩

end Symmetry

/-! ### The best contrast -/

section

variable {d : ℕ → ℤ}

/-- Dark arcs count as much as bright ones. -/
lemma bestContrast_neg : bestContrast (fun k => -d k) = bestContrast d := by
  refine eq_of_forall_lt_iff fun c => ?_
  simp only [lt_bestContrast, neg_neg]
  exact or_comm

lemma bestContrast_rotate (hd : Function.Periodic d 16) (r : ℕ) :
    bestContrast (fun k => d (r + 1 * k)) = bestContrast d := by
  refine eq_of_forall_lt_iff fun c => ?_
  simp only [lt_bestContrast, one_mul]
  exact or_congr (exists_arc_rotate (P := fun v => c < v) hd r)
    (exists_arc_rotate (P := fun v => c < -v) hd r)

lemma bestContrast_reflect (hd : Function.Periodic d 16) (r : ℕ) :
    bestContrast (fun k => d (r + 15 * k)) = bestContrast d := by
  refine eq_of_forall_lt_iff fun c => ?_
  simp only [lt_bestContrast]
  exact or_congr (exists_arc_reflect (P := fun v => c < v) hd r)
    (exists_arc_reflect (P := fun v => c < -v) hd r)

end

/-! ### Windows -/

namespace Raster

/-- The window around `(x', y')` shows that around `(x, y)` under a symmetry: the differences to
the centre are the same, or all of them have changed their sign. -/
structure SameWindow (g : Symmetry) (sign : ℤˣ) (img : Raster) (x y : ℤ) (img' : Raster)
    (x' y' : ℤ) : Prop where
  difference : ∀ dx dy : ℤ, (-4 ≤ dx ∧ dx ≤ 4) → (-4 ≤ dy ∧ dy ≤ 4) →
    ((img'.pixel (x' + (g.act (dx, dy)).1) (y' + (g.act (dx, dy)).2)).toNat : ℤ)
        - (img'.pixel x' y').toNat
      = sign * ((img.pixel (x + dx) (y + dy)).toNat - (img.pixel x y).toNat)

variable {g : Symmetry} {sign : ℤˣ} {img img' : Raster} {x y x' y' : ℤ} {threshold : UInt8}

lemma contrast_periodic (img : Raster) (x y : ℤ) : Function.Periodic (img.contrast x y) 16 :=
  fun k => by simp only [contrast, img.circle_periodic x y k]

/-- The circles around the pixels next to the centre lie in the window. -/
lemma SameWindow.contrast (h : SameWindow g sign img x y img' x' y') {dx dy : ℤ}
    (hx : -1 ≤ dx ∧ dx ≤ 1) (hy : -1 ≤ dy ∧ dy ≤ 1) {m r : ℕ}
    (hcircle : ∀ k, g.act (circleOffset k) = circleOffset (r + m * k)) (k : ℕ) :
    img'.contrast (x' + (g.act (dx, dy)).1) (y' + (g.act (dx, dy)).2) (r + m * k)
      = sign * img.contrast (x + dx) (y + dy) k := by
  have hb := circleOffset_bound k
  have hcentre := h.difference dx dy (by omega) (by omega)
  have hpoint := h.difference (dx + (circleOffset k).1) (dy + (circleOffset k).2) (by omega)
    (by omega)
  have hact : g.act (dx + (circleOffset k).1, dy + (circleOffset k).2)
      = g.act (dx, dy) + circleOffset (r + m * k) := by
    rw [← hcircle, ← Symmetry.act_add]
    rfl
  simp only [hact, Prod.fst_add, Prod.snd_add, ← add_assoc] at hpoint
  simp only [Raster.contrast, circle]
  linear_combination hcentre - hpoint

/-- The scores around the centre are those of the other window. -/
lemma SameWindow.cornerScore (h : SameWindow g sign img x y img' x' y') {dx dy : ℤ}
    (hx : -1 ≤ dx ∧ dx ≤ 1) (hy : -1 ≤ dy ∧ dy ≤ 1) :
    img'.cornerScore threshold (x' + (g.act (dx, dy)).1) (y' + (g.act (dx, dy)).2)
      = img.cornerScore threshold (x + dx) (y + dy) := by
  have hsign : bestContrast (fun k => sign * img.contrast (x + dx) (y + dy) k)
      = bestContrast (img.contrast (x + dx) (y + dy)) := by
    rcases Int.units_eq_one_or sign with rfl | rfl
    · simp
    · simpa using bestContrast_neg
  have hbest : bestContrast (img'.contrast (x' + (g.act (dx, dy)).1) (y' + (g.act (dx, dy)).2))
      = bestContrast (img.contrast (x + dx) (y + dy)) := by
    have hperiodic := img'.contrast_periodic (x' + (g.act (dx, dy)).1) (y' + (g.act (dx, dy)).2)
    obtain ⟨r, hcircle | hcircle⟩ := g.act_circleOffset
    · rw [← bestContrast_rotate hperiodic r, funext (h.contrast hx hy hcircle), hsign]
    · rw [← bestContrast_reflect hperiodic r, funext (h.contrast hx hy hcircle), hsign]
  rw [Raster.cornerScore, hbest, Raster.cornerScore]

/-- The whole window lies inside the image, and the pixel away from the right and lower margin. -/
def WindowInside (img : Raster) (x y : ℤ) : Prop :=
  (4 ≤ x ∧ x + 9 ≤ img.width) ∧ (4 ≤ y ∧ y + 5 ≤ img.height)

instance (img : Raster) (x y : ℤ) : Decidable (img.WindowInside x y) :=
  inferInstanceAs (Decidable (_ ∧ _))

/-- The neighbours have their circles inside the image. -/
lemma WindowInside.score (h : img.WindowInside x y) (threshold : UInt8) {d : ℤ × ℤ}
    (hx : -1 ≤ d.1 ∧ d.1 ≤ 1) (hy : -1 ≤ d.2 ∧ d.2 ≤ 1) :
    img.score threshold (x + d.1) (y + d.2) = img.cornerScore threshold (x + d.1) (y + d.2) := by
  obtain ⟨hxw, hyh⟩ := h
  exact if_pos ⟨by omega, by omega⟩

lemma isLocalMaximum_iff (h : img.WindowInside x y) :
    img.IsLocalMaximum threshold x y ↔ 0 < img.cornerScore threshold x y ∧
      ∀ d, Symmetry.IsNeighbour d →
        img.cornerScore threshold (x + d.1) (y + d.2) < img.cornerScore threshold x y := by
  have hcentre : img.score threshold x y = img.cornerScore threshold x y := by
    simpa using h.score threshold (d := (0, 0)) (by decide) (by decide)
  rw [IsLocalMaximum, hcentre]
  refine and_congr_right fun _ => ⟨fun hmax d hd => ?_, fun hmax dx dy hx hy hne => ?_⟩
  · rw [← h.score threshold hd.1.1 hd.1.2]
    refine hmax d.1 d.2 hd.1.1 hd.1.2 fun hzero => hd.2 ?_
    exact ⟨congrArg Prod.fst hzero, congrArg Prod.snd hzero⟩
  · have hd : Symmetry.IsNeighbour (dx, dy) := ⟨⟨hx, hy⟩, by simpa using hne⟩
    have hlt := hmax (dx, dy) hd
    rwa [← h.score threshold hx hy] at hlt

/-- The centre of the one window is a local maximum when the centre of the other is. -/
lemma SameWindow.isLocalMaximum_iff (h : SameWindow g sign img x y img' x' y')
    (hin : img.WindowInside x y) (hin' : img'.WindowInside x' y') :
    img'.IsLocalMaximum threshold x' y' ↔ img.IsLocalMaximum threshold x y := by
  have hscore : ∀ d : ℤ × ℤ, -1 ≤ d.1 ∧ d.1 ≤ 1 → -1 ≤ d.2 ∧ d.2 ≤ 1 →
      img'.cornerScore threshold (x' + (g.act d).1) (y' + (g.act d).2)
        = img.cornerScore threshold (x + d.1) (y + d.2) := fun d => h.cornerScore
  have hcentre : img'.cornerScore threshold x' y' = img.cornerScore threshold x y := by
    have hzero := hscore 0 (by decide) (by decide)
    simpa [g.act_zero] using hzero
  rw [Raster.isLocalMaximum_iff hin, Raster.isLocalMaximum_iff hin', hcentre]
  refine and_congr_right fun _ => ⟨fun hmax d hd => ?_, fun hmax d hd => ?_⟩
  · rw [← hscore d hd.1.1 hd.1.2]
    exact hmax _ (g.isNeighbour_act hd)
  · have hback := g.symm.isNeighbour_act hd
    have hlt := hmax _ hback
    rwa [← hscore _ hback.1.1 hback.1.2, Symmetry.act_symm] at hlt

end Raster

/-! ### The output -/

/-- A pixel is reported exactly when the pixel of another image whose window looks the same up to
a symmetry, an offset and the sign of the differences is reported there. -/
theorem extractFeatures_sameWindow (img img' : Raster) (threshold : UInt8)
    (hw : img.width ≤ 32768) (hw' : img'.width ≤ 32768) (g : Symmetry) (sign : ℤˣ)
    (x y x' y' : ℕ) (hin : img.WindowInside x y) (hin' : img'.WindowInside x' y')
    (hwindow : Raster.SameWindow g sign img x y img' x' y')
    (outKeypoints outKeypoints' : ℕ → KeyPoint) (capacity capacity' : ℕ) :
    ∃ out out',
      extractFeatures img.data img.width img.height threshold outKeypoints capacity = some out ∧
      extractFeatures img'.data img'.width img'.height threshold outKeypoints' capacity'
        = some out' ∧
      (img.width * img.height ≤ capacity → out.outOfSpace = false) ∧
      (img'.width * img'.height ≤ capacity' → out'.outOfSpace = false) ∧
      (out.outOfSpace = false → out'.outOfSpace = false →
        (out'.Reports x' y' ↔ out.Reports x y)) := by
  obtain ⟨out, hout, hcapacity, hreports⟩ :=
    exists_extractFeatures img threshold hw outKeypoints capacity
  obtain ⟨out', hout', hcapacity', hreports'⟩ :=
    exists_extractFeatures img' threshold hw' outKeypoints' capacity'
  refine ⟨out, out', hout, hout', hcapacity, hcapacity', fun hspace hspace' => ?_⟩
  have hx := hin
  have hx' := hin'
  simp only [Raster.WindowInside] at hx hx'
  rw [hreports hspace, hreports' hspace', mem_reported_iff (by omega) (by omega),
    mem_reported_iff (by omega) (by omega)]
  exact hwindow.isLocalMaximum_iff hin hin'

/-- A dark dot on white ground in a larger image, which is the bright dot mirrored and inverted. -/
def darkDot : Raster := ⟨30, 20, fun x y => if x = 9 ∧ y = 8 then 0 else 255⟩

lemma sameWindow_darkDot :
    Raster.SameWindow ⟨true, false, true⟩ (-1) brightDot (5 : ℕ) (5 : ℕ) darkDot (9 : ℕ)
      (8 : ℕ) := by
  refine ⟨fun dx dy _ _ => ?_⟩
  have hdark : (((9 : ℕ) : ℤ) + dy = 9 ∧ ((8 : ℕ) : ℤ) + -dx = 8) ↔
      (((5 : ℕ) : ℤ) + dx = 5 ∧ ((5 : ℕ) : ℤ) + dy = 5) := by omega
  simp only [Symmetry.act, darkDot, brightDot, if_true, Bool.false_eq_true, if_false, hdark]
  split_ifs <;> simp at *

/-- Both dots are reported. -/
theorem extractFeatures_sameWindow_darkDot :
    ∃ out out',
      extractFeatures brightDot.data brightDot.width brightDot.height 10 noKeypoints 180
        = some out ∧
      extractFeatures darkDot.data darkDot.width darkDot.height 10 noKeypoints 600 = some out' ∧
      out.Reports 5 5 ∧ out'.Reports 9 8 := by
  obtain ⟨out, out', hout, hout', hcapacity, hcapacity', hreports⟩ := extractFeatures_sameWindow
    brightDot darkDot 10 (by decide) (by decide) ⟨true, false, true⟩ (-1) 5 5 9 8 (by decide)
    (by decide) sameWindow_darkDot noKeypoints noKeypoints 180 600
  have hspace := hcapacity (by decide)
  obtain ⟨bright, hbright, -, hmem⟩ :=
    exists_extractFeatures brightDot 10 (by decide) noKeypoints 180
  obtain rfl : out = bright := Option.some.inj (hout.symm.trans hbright)
  have hdot : out.Reports 5 5 :=
    (hmem hspace 5 5).mpr ((mem_reported_iff (by decide) (by decide)).mpr isLocalMaximum_brightDot)
  exact ⟨out, out', hout, hout', hdot, (hreports hspace (hcapacity' (by decide))).mpr hdot⟩

end VioFrontend
