import Mathlib.Tactic

/-!
# Counting loops that may fail

The loop `for (i = 0; i < n; i++)` over a fallible step is `(List.range n).foldlM` in `Option`.
It is verified with an invariant indexed by the number of iterations: if every step succeeds and
takes the invariant on, then so does the loop.
-/

namespace Loops

variable {σ : Type*}

/-- The invariant rule of a counting loop. -/
theorem exists_foldlM_range {n : ℕ} {f : σ → ℕ → Option σ} {s : σ} (P : ℕ → σ → Prop)
    (h0 : P 0 s) (hstep : ∀ i < n, ∀ s, P i s → ∃ s', f s i = some s' ∧ P (i + 1) s') :
    ∃ s', (List.range n).foldlM f s = some s' ∧ P n s' := by
  induction n with
  | zero => exact ⟨s, rfl, h0⟩
  | succ n ih =>
    obtain ⟨s', hs', hP⟩ := ih fun i hi => hstep i (by omega)
    obtain ⟨s'', hs'', hP'⟩ := hstep n (by omega) s' hP
    refine ⟨s'', ?_, hP'⟩
    rw [List.range_succ, List.foldlM_append, hs']
    simp [hs'']

/-- The simulation rule: a second loop keeps up with a loop that succeeds. -/
theorem exists_foldlM_range_of_sim {τ : Type*} {n : ℕ} {f : σ → ℕ → Option σ}
    {g : τ → ℕ → Option τ} {s s' : σ} {t : τ} (R : ℕ → σ → τ → Prop)
    (hf : (List.range n).foldlM f s = some s') (h0 : R 0 s t)
    (hstep : ∀ i < n, ∀ s t s', R i s t → f s i = some s' →
      ∃ t', g t i = some t' ∧ R (i + 1) s' t') :
    ∃ t', (List.range n).foldlM g t = some t' ∧ R n s' t' := by
  induction n generalizing s' with
  | zero =>
    obtain rfl : s = s' := Option.some.inj hf
    exact ⟨t, rfl, h0⟩
  | succ n ih =>
    rw [List.range_succ, List.foldlM_append] at hf
    obtain ⟨r, hr, hlast⟩ := Option.bind_eq_some_iff.mp hf
    have hlast : f r n = some s' := by simpa using hlast
    obtain ⟨u, hu, hR⟩ := ih hr fun i hi => hstep i (by omega)
    obtain ⟨u', hu', hR'⟩ := hstep n (by omega) r u s' hR hlast
    refine ⟨u', ?_, hR'⟩
    rw [List.range_succ, List.foldlM_append, hu]
    simp [hu']

/-- A loop that collects one value in each turn. -/
lemma mapM_eq_some {α : Type*} {l : List σ} {f : σ → Option α} {g : σ → α}
    (h : ∀ i ∈ l, f i = some (g i)) : l.mapM f = some (l.map g) := by
  induction l with
  | nil => rfl
  | cons i l ih =>
    rw [List.mapM_cons, h i List.mem_cons_self, ih fun j hj => h j (List.mem_cons_of_mem i hj)]
    rfl

end Loops
