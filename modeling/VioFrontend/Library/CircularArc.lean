import Mathlib.Tactic
import Mathlib.Algebra.Ring.Periodic
import Mathlib.Data.Finset.Lattice.Fold

/-!
# Arcs on a circle of positions

A circle of `n` positions carrying values of a linear order is a function `f : ℕ → α` of period
`n`. An *arc* is `len` consecutive positions; `arcMin len f k` is the least value on the arc
from `k`, and `best n g` the largest of the values `g k` that the arcs from the `n` starting
positions are given. A circle that is turned or read backwards has the same arcs, an arc of at
least half of the circle meets every pair of opposite positions, and `hasRun` is the counter loop
that looks for an arc in an unrolled circle.
-/

namespace CircularArc

section Best

variable {α : Type*} [LinearOrder α] {n len : ℕ} [NeZero n] [NeZero len]

/-- The least value on the arc of `len` positions from `k`. -/
def arcMin (len : ℕ) [NeZero len] (f : ℕ → α) (k : ℕ) : α :=
  (Finset.range len).inf' (Finset.nonempty_range_iff.mpr (NeZero.ne len)) fun i => f (k + i)

/-- The largest of `g 0, ..., g (n - 1)`. -/
def best (n : ℕ) [NeZero n] (g : ℕ → α) : α :=
  (Finset.range n).sup' (Finset.nonempty_range_iff.mpr (NeZero.ne n)) g

lemma lt_arcMin {f : ℕ → α} {k : ℕ} {a : α} :
    a < arcMin len f k ↔ ∀ i < len, a < f (k + i) := by
  simp [arcMin, Finset.lt_inf'_iff]

lemma lt_best {g : ℕ → α} {a : α} : a < best n g ↔ ∃ k < n, a < g k := by
  simp [best, Finset.lt_sup'_iff]

end Best

/-! ### Opposite positions -/

/-- Positions that agree modulo `m` are equal or opposite on a circle of `m * 2`. -/
lemma mod_two_mul_eq {m p q : ℕ} (h : q % m = p % m) :
    q % (m * 2) = p % (m * 2) ∨ q % (m * 2) = (p + m) % (m * 2) := by
  rcases Nat.eq_zero_or_pos m with rfl | hm
  · left; simpa using h
  · have hdiv : (p + m) / m = p / m + 1 := Nat.add_div_right p hm
    rw [Nat.mod_mul, Nat.mod_mul, Nat.mod_mul, Nat.add_mod_right, hdiv, h]
    rcases Nat.mod_two_eq_zero_or_one (q / m) with hq | hq <;>
      rcases Nat.mod_two_eq_zero_or_one (p / m) with hp | hp
    · left; rw [hq, hp]
    · right; rw [hq, Nat.add_mod, hp]
    · right; rw [hq, Nat.add_mod, hp]
    · left; rw [hq, hp]

/-- An arc of at least half the circle meets every pair of opposite positions. -/
lemma exists_opposite {β : Type*} {m len : ℕ} {f : ℕ → β} (hf : Function.Periodic f (m * 2))
    (hm : 0 < m) (hlen : m ≤ len) {P : β → Prop} {s : ℕ} (hs : ∀ i < len, P (f (s + i)))
    (p : ℕ) : P (f p) ∨ P (f (p + m)) := by
  -- the first position of the arc that is congruent to `p` modulo `m`
  obtain ⟨i, hi, hmod⟩ : ∃ i < m, (s + i) % m = p % m := by
    refine ⟨(p + (m - s % m)) % m, Nat.mod_lt _ hm, ?_⟩
    have hsm : s % m < m := Nat.mod_lt _ hm
    have hsum : s + (p + (m - s % m)) = p + m * (s / m + 1) := by
      have := Nat.div_add_mod s m
      rw [Nat.mul_add, Nat.mul_one]
      omega
    rw [Nat.add_mod, Nat.mod_mod, ← Nat.add_mod, hsum, Nat.add_mul_mod_self_left]
  have hPi := hs i (by omega)
  rw [← hf.map_mod_nat] at hPi
  rcases mod_two_mul_eq hmod with h | h
  · left; rwa [h, hf.map_mod_nat] at hPi
  · right; rwa [h, hf.map_mod_nat] at hPi

/-! ### Rotations and reflections -/

section

variable {β : Type*} {n len : ℕ} {f : ℕ → β} {P : β → Prop}

lemma apply_eq_of_modEq (hf : Function.Periodic f n) {p q : ℕ} (h : p ≡ q [MOD n]) :
    f p = f q := by
  rw [← hf.map_mod_nat p, h, hf.map_mod_nat]

/-- An arc may start at any position of the unrolled circle. -/
lemma exists_arc_iff (hf : Function.Periodic f n) (hn : 0 < n) :
    (∃ k < n, ∀ i < len, P (f (k + i))) ↔ ∃ k, ∀ i < len, P (f (k + i)) := by
  constructor
  · rintro ⟨k, -, hk⟩
    exact ⟨k, hk⟩
  · rintro ⟨k, hk⟩
    refine ⟨k % n, Nat.mod_lt _ hn, fun i hi => ?_⟩
    rw [apply_eq_of_modEq hf ((Nat.mod_modEq k n).add_right i)]
    exact hk i hi

/-- The circle of `m + 1` positions read backwards from position `r`. -/
lemma periodic_reflect {m : ℕ} (hf : Function.Periodic f (m + 1)) (r : ℕ) :
    Function.Periodic (fun k => f (r + m * k)) (m + 1) := by
  intro k
  refine apply_eq_of_modEq hf ?_
  have hsum : r + m * (k + (m + 1)) = r + m * k + m * (m + 1) := by ring
  rw [Nat.ModEq, hsum, Nat.add_mul_mod_self_right]

/-- An arc of the circle read backwards is an arc of the circle, from its other end. -/
lemma exists_arc_of_reflect {m : ℕ} (hf : Function.Periodic f (m + 1)) {r : ℕ}
    (h : ∃ k, ∀ i < len, P (f (r + m * (k + i)))) : ∃ k, ∀ i < len, P (f (k + i)) := by
  obtain ⟨k, hk⟩ := h
  refine ⟨r + m * (k + (len - 1)), fun i hi => ?_⟩
  obtain ⟨j, hj⟩ := Nat.exists_eq_add_of_lt hi
  have hlast : len - 1 = j + i := by omega
  have hsum : r + m * (k + (j + i)) + i = r + m * (k + j) + i * (m + 1) := by ring
  have hmod : r + m * (k + (len - 1)) + i ≡ r + m * (k + j) [MOD m + 1] := by
    rw [hlast, Nat.ModEq, hsum, Nat.add_mul_mod_self_right]
  rw [apply_eq_of_modEq hf hmod]
  exact hk j (by omega)

/-- The circle read backwards has the same arcs. -/
lemma exists_arc_reflect {m : ℕ} (hf : Function.Periodic f (m + 1)) (r : ℕ) :
    (∃ k < m + 1, ∀ i < len, P (f (r + m * (k + i)))) ↔
      ∃ k < m + 1, ∀ i < len, P (f (k + i)) := by
  have hreflected := periodic_reflect hf r
  rw [exists_arc_iff (f := fun k => f (r + m * k)) hreflected (Nat.succ_pos m),
    exists_arc_iff hf (Nat.succ_pos m)]
  constructor
  · exact exists_arc_of_reflect hf
  · intro h
    -- read backwards twice, the circle is the same
    have htwice : ∀ p, f (r + m * (r + m * p)) = f p := fun p => by
      have hsum : r + m * (r + m * p) + p * (m + 1) = p + (r + m * p) * (m + 1) := by ring
      have hmod : r + m * (r + m * p) ≡ p [MOD m + 1] := by
        rw [Nat.ModEq, ← Nat.add_mul_mod_self_right _ p, hsum, Nat.add_mul_mod_self_right]
      exact apply_eq_of_modEq hf hmod
    refine exists_arc_of_reflect (f := fun k => f (r + m * k)) (r := r) hreflected ?_
    simpa only [htwice] using h

/-- The circle turned by `r` has the same arcs. -/
lemma exists_arc_rotate {m : ℕ} (hf : Function.Periodic f (m + 1)) (r : ℕ) :
    (∃ k < m + 1, ∀ i < len, P (f (r + (k + i)))) ↔ ∃ k < m + 1, ∀ i < len, P (f (k + i)) := by
  have hturned : Function.Periodic (fun k => f (r + k)) (m + 1) := fun k => by
    simpa only [Nat.add_assoc] using hf (r + k)
  rw [exists_arc_iff (f := fun k => f (r + k)) hturned (Nat.succ_pos m),
    exists_arc_iff hf (Nat.succ_pos m)]
  constructor
  · rintro ⟨k, hk⟩
    exact ⟨r + k, fun i hi => by simpa only [Nat.add_assoc] using hk i hi⟩
  · rintro ⟨k, hk⟩
    refine ⟨k + m * r, fun i hi => ?_⟩
    have hsum : r + (k + m * r + i) = k + i + r * (m + 1) := by ring
    have hmod : r + (k + m * r + i) ≡ k + i [MOD m + 1] := by
      rw [Nat.ModEq, hsum, Nat.add_mul_mod_self_right]
    show P (f (r + (k + m * r + i)))
    rw [apply_eq_of_modEq hf hmod]
    exact hk i hi

end

/-! ### Looking for a run with a counter -/

/-- The counter loop: `true` as soon as `len` consecutive entries are `true`, where `count`
entries directly before the list were `true`. -/
def hasRun (len : ℕ) : List Bool → ℕ → Bool
  | [], _ => false
  | b :: bs, count =>
    if b then (if count + 1 = len then true else hasRun len bs (count + 1))
    else hasRun len bs 0

/-- The first `m` entries of `bs` are `true`. -/
def RunPrefix (m : ℕ) (bs : List Bool) : Prop := ∀ i < m, bs[i]? = some true

lemma runPrefix_cons {m : ℕ} {b : Bool} {bs : List Bool} :
    RunPrefix (m + 1) (b :: bs) ↔ b = true ∧ RunPrefix m bs := by
  constructor
  · intro h
    refine ⟨by simpa using h 0 (by omega), fun i hi => ?_⟩
    simpa using h (i + 1) (by omega)
  · rintro ⟨hb, h⟩ i hi
    cases i with
    | zero => simpa using hb
    | succ i => simpa using h i (by omega)

/-- With `count` entries already matched the loop succeeds iff the list starts with the missing
ones, or a whole run starts later. -/
lemma hasRun_iff {len : ℕ} {bs : List Bool} {count : ℕ} (hc : count < len) :
    hasRun len bs count = true ↔
      RunPrefix (len - count) bs ∨ ∃ s, RunPrefix len (bs.drop s) := by
  induction bs generalizing count with
  | nil =>
    have h0 : ∀ m, 0 < m → ¬ RunPrefix m [] := fun m hm h => by simpa using h 0 hm
    simp [hasRun, h0 _ (show 0 < len - count by omega), h0 _ (show 0 < len by omega)]
  | cons b bs ih =>
    have hdrop : (∃ s, RunPrefix len ((b :: bs).drop s)) ↔
        RunPrefix len (b :: bs) ∨ ∃ s, RunPrefix len (bs.drop s) := by
      constructor
      · rintro ⟨s, hs⟩
        cases s with
        | zero => exact Or.inl hs
        | succ s => exact Or.inr ⟨s, hs⟩
      · rintro (h | ⟨s, hs⟩)
        · exact ⟨0, h⟩
        · exact ⟨s + 1, hs⟩
    obtain ⟨l, rfl⟩ : ∃ l, len = l + 1 := ⟨len - 1, by omega⟩
    have hsub : l + 1 - count = (l - count) + 1 := by omega
    rw [hdrop, hsub, runPrefix_cons, runPrefix_cons, hasRun]
    cases b with
    | false =>
      simp only [Bool.false_eq_true, if_false, false_and, false_or]
      rw [ih (by omega)]
      constructor
      · rintro (h | h)
        · exact ⟨0, by simpa using h⟩
        · exact h
      · exact Or.inr
    | true =>
      simp only [if_true, true_and]
      split_ifs with hlast
      · have : l - count = 0 := by omega
        simp [this, RunPrefix]
      · rw [ih (by omega)]
        have hle : l + 1 - (count + 1) = l - count := by omega
        rw [hle]
        constructor
        · rintro (h | h)
          · exact Or.inl h
          · exact Or.inr (Or.inr h)
        · rintro (h | h | h)
          · exact Or.inl h
          · exact Or.inl fun i hi => h i (by omega)
          · exact Or.inr h

/-- On a circle of `n` positions unrolled to `n + len` entries the loop finds a run iff the
circle has one. -/
lemma hasRun_unrolled {n len : ℕ} {p : ℕ → Bool} (hp : Function.Periodic p n) (hn : 0 < n)
    (hlen : 0 < len) :
    hasRun len ((List.range (n + len)).map p) 0 = true ↔ ∃ k < n, ∀ i < len, p (k + i) = true := by
  have hget : ∀ s i, (((List.range (n + len)).map p).drop s)[i]? = some true ↔
      s + i < n + len ∧ p (s + i) = true := by
    intro s i
    rw [List.getElem?_drop, List.getElem?_map]
    by_cases h : s + i < n + len
    · simp [h]
    · simp [h]
  rw [hasRun_iff hlen]
  constructor
  · intro h
    obtain ⟨s, hs⟩ : ∃ s, RunPrefix len (((List.range (n + len)).map p).drop s) := by
      rcases h with h | h
      · exact ⟨0, by simpa using h⟩
      · exact h
    refine ⟨s % n, Nat.mod_lt _ hn, fun i hi => ?_⟩
    have := ((hget s i).mp (hs i hi)).2
    rw [← hp.map_mod_nat] at this ⊢
    rwa [Nat.mod_add_mod]
  · rintro ⟨k, hk, h⟩
    exact Or.inr ⟨k, fun i hi => (hget k i).mpr ⟨by omega, h i hi⟩⟩

end CircularArc
