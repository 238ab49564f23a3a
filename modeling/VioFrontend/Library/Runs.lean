import Mathlib.Tactic

/-!
# Runs of a step that may fail

A machine takes one input after the other; its step may fail. `after step inputs s n` is the state
after the first `n` inputs. The rules are those of an invariant, of a relation that every step of a
part of the run satisfies, and of a relation between two machines.

A finite run over a list of inputs is `run step inputs s`; here a step fails on the inputs that
are not possible in a state. A guard leaves out some of the possible inputs.
-/

namespace Runs

variable {σ ι : Type*} {step : ι → σ → Option σ} {inputs : ℕ → ι} {s : σ}

/-- The state after the first `n` inputs. -/
def after (step : ι → σ → Option σ) (inputs : ℕ → ι) (s : σ) : ℕ → Option σ
  | 0 => some s
  | n + 1 => (after step inputs s n).bind (step (inputs n))

/-- The invariant rule: a step that keeps `P` does not fail on a run. -/
theorem exists_after {P : σ → Prop} (h0 : P s)
    (hstep : ∀ n s, P s → ∃ s', step (inputs n) s = some s' ∧ P s') (n : ℕ) :
    ∃ s', after step inputs s n = some s' ∧ P s' := by
  induction n with
  | zero => exact ⟨s, rfl, h0⟩
  | succ n ih =>
    obtain ⟨s', hs', hP⟩ := ih
    obtain ⟨s'', hs'', hP'⟩ := hstep n s' hP
    refine ⟨s'', ?_, hP'⟩
    rw [after, hs', Option.bind_some, hs'']

/-- What every step of a part of the run does to its state, the whole part does. -/
theorem rel_of_steps {R : σ → σ → Prop} (hrefl : ∀ s, R s s)
    (htrans : ∀ a b c, R a b → R b c → R a c) {m n : ℕ} (hmn : m ≤ n)
    (hstep : ∀ j, m ≤ j → j < n → ∀ a b, after step inputs s j = some a →
      step (inputs j) a = some b → R a b) {a b : σ} (ha : after step inputs s m = some a)
    (hb : after step inputs s n = some b) : R a b := by
  induction n, hmn using Nat.le_induction generalizing b with
  | base =>
    obtain rfl := Option.some.inj (ha.symm.trans hb)
    exact hrefl a
  | succ n hmn ih =>
    obtain ⟨c, hc, hcb⟩ := Option.bind_eq_some_iff.mp hb
    have hac : R a c := ih (fun j hj hjn => hstep j hj (Nat.lt_succ_of_lt hjn)) hc
    exact htrans a c b hac (hstep n hmn (Nat.lt_succ_self n) c b hc hcb)

/-- The relational rule: two machines whose steps keep a relation between their states do not fail
on their runs, and keep it after the same number of inputs. -/
theorem exists_after_pair {τ κ : Type*} {step' : κ → τ → Option τ} {inputs' : ℕ → κ} {t : τ}
    {R : σ → τ → Prop} (h0 : R s t)
    (hstep : ∀ n s t, R s t →
      ∃ s' t', step (inputs n) s = some s' ∧ step' (inputs' n) t = some t' ∧ R s' t') (n : ℕ) :
    ∃ s' t', after step inputs s n = some s' ∧ after step' inputs' t n = some t' ∧ R s' t' := by
  induction n with
  | zero => exact ⟨s, t, rfl, rfl, h0⟩
  | succ n ih =>
    obtain ⟨s', t', hs, ht, hR⟩ := ih
    obtain ⟨s'', t'', hs', ht', hR'⟩ := hstep n s' t' hR
    refine ⟨s'', t'', ?_, ?_, hR'⟩
    · rw [after, hs, Option.bind_some, hs']
    · rw [after, ht, Option.bind_some, ht']

/-! ### Finite runs -/

/-- The state after a list of inputs. -/
def run (step : ι → σ → Option σ) (inputs : List ι) (s : σ) : Option σ :=
  inputs.foldlM (fun s i => step i s) s

lemma run_concat (step : ι → σ → Option σ) (inputs : List ι) (i : ι) (s : σ) :
    run step (inputs ++ [i]) s = (run step inputs s).bind (step i) := by
  simp [run, List.foldlM_append]

/-- The invariant rule: what every possible step keeps holds in every reachable state. -/
theorem run_invariant {P : σ → Prop} (h0 : P s)
    (hstep : ∀ i s s', P s → step i s = some s' → P s') {inputs : List ι} {s' : σ}
    (hrun : run step inputs s = some s') : P s' := by
  induction inputs using List.reverseRecOn generalizing s' with
  | nil =>
    obtain rfl := Option.some.inj hrun
    exact h0
  | append_singleton inputs i ih =>
    rw [run_concat] at hrun
    obtain ⟨r, hr, hi⟩ := Option.bind_eq_some_iff.mp hrun
    exact hstep i r s' (ih hr) hi

/-- The step that is possible only where the guard holds. -/
def guarded (guard : ι → σ → Prop) [∀ i s, Decidable (guard i s)] (step : ι → σ → Option σ)
    (i : ι) (s : σ) : Option σ :=
  if guard i s then step i s else none

theorem run_of_guarded {guard : ι → σ → Prop} [∀ i s, Decidable (guard i s)] {inputs : List ι}
    {s' : σ} (hrun : run (guarded guard step) inputs s = some s') :
    run step inputs s = some s' := by
  induction inputs using List.reverseRecOn generalizing s' with
  | nil => exact hrun
  | append_singleton inputs i ih =>
    rw [run_concat] at hrun ⊢
    obtain ⟨r, hr, hi⟩ := Option.bind_eq_some_iff.mp hrun
    rw [guarded] at hi
    split_ifs at hi
    rw [ih hr, Option.bind_some, hi]

/-- A property that no step can restore holds after a run exactly when all its steps were taken
where the guard holds, if those are the steps that keep it. -/
theorem iff_run_guarded {P : σ → Prop} {Q : σ → Prop} {guard : ι → σ → Prop}
    [∀ i s, Decidable (guard i s)] (hQ : Q s) (h0 : P s)
    (hstepQ : ∀ i s s', Q s → step i s = some s' → Q s')
    (hback : ∀ i s s', Q s → step i s = some s' → P s' → P s)
    (hkeep : ∀ i s s', Q s → step i s = some s' → P s → (P s' ↔ guard i s))
    {inputs : List ι} {s' : σ} (hrun : run step inputs s = some s') :
    P s' ↔ run (guarded guard step) inputs s = some s' := by
  induction inputs using List.reverseRecOn generalizing s' with
  | nil =>
    obtain rfl := Option.some.inj hrun
    exact ⟨fun _ => rfl, fun _ => h0⟩
  | append_singleton inputs i ih =>
    rw [run_concat] at hrun
    obtain ⟨r, hr, hi⟩ := Option.bind_eq_some_iff.mp hrun
    have hQr : Q r := run_invariant hQ hstepQ hr
    rw [run_concat]
    constructor
    · intro hP
      have hPr : P r := hback i r s' hQr hi hP
      rw [(ih hr).mp hPr, Option.bind_some, guarded, if_pos ((hkeep i r s' hQr hi hPr).mp hP), hi]
    · intro hguarded
      obtain ⟨t, ht, hit⟩ := Option.bind_eq_some_iff.mp hguarded
      rw [guarded] at hit
      split_ifs at hit with hguard
      have htr : t = r := by
        have hrun' : run step inputs s = some t := run_of_guarded ht
        exact Option.some.inj (hrun'.symm.trans hr)
      subst htr
      exact (hkeep i t s' hQr hi ((ih hr).mpr ht)).mpr hguard

lemma run_cons (step : ι → σ → Option σ) (i : ι) (inputs : List ι) (s : σ) :
    run step (i :: inputs) s = (step i s).bind (run step inputs) := rfl

/-- The invariant rule for the inputs of one run. -/
theorem run_invariant_of_mem {P : σ → Prop} {inputs : List ι} {s' : σ} (h0 : P s)
    (hstep : ∀ i ∈ inputs, ∀ s s', P s → step i s = some s' → P s')
    (hrun : run step inputs s = some s') : P s' := by
  induction inputs generalizing s with
  | nil =>
    obtain rfl := Option.some.inj hrun
    exact h0
  | cons i inputs ih =>
    rw [run_cons] at hrun
    obtain ⟨r, hr, hrun⟩ := Option.bind_eq_some_iff.mp hrun
    exact ih (hstep i List.mem_cons_self s r h0 hr)
      (fun j hj => hstep j (List.mem_cons_of_mem i hj)) hrun

/-- A run whose steps all make a measure smaller is not longer than the measure. -/
theorem length_le_of_decreasing {P : σ → Prop} {measure : σ → ℕ} {inputs : List ι} {s' : σ}
    (h0 : P s) (hkeep : ∀ i ∈ inputs, ∀ s s', P s → step i s = some s' → P s')
    (hstep : ∀ i ∈ inputs, ∀ s s', P s → step i s = some s' → measure s' < measure s)
    (hrun : run step inputs s = some s') : inputs.length + measure s' ≤ measure s := by
  induction inputs generalizing s with
  | nil =>
    obtain rfl := Option.some.inj hrun
    exact (Nat.zero_add _).le
  | cons i inputs ih =>
    rw [run_cons] at hrun
    obtain ⟨r, hr, hrun⟩ := Option.bind_eq_some_iff.mp hrun
    have hi : i ∈ i :: inputs := List.mem_cons_self
    have hlt := hstep i hi s r h0 hr
    have hle := ih (hkeep i hi s r h0 hr)
      (fun j hj => hkeep j (List.mem_cons_of_mem i hj))
      (fun j hj => hstep j (List.mem_cons_of_mem i hj)) hrun
    rw [List.length_cons]
    omega

/-! ### Simulation -/

lemma run_append (step : ι → σ → Option σ) (inputs inputs' : List ι) (s : σ) :
    run step (inputs ++ inputs') s = (run step inputs s).bind (run step inputs') := by
  rw [run, List.foldlM_append]
  rfl

variable {τ κ : Type*} {step' : κ → τ → Option τ} {labels : ι → σ → List κ}

/-- The steps of the abstract machine that a run of the concrete one stands for. -/
def trace (step : ι → σ → Option σ) (labels : ι → σ → List κ) : List ι → σ → List κ
  | [], _ => []
  | i :: inputs, s => labels i s ++ ((step i s).map (trace step labels inputs)).getD []

/-- The simulation rule: what every step does through the relation, a run does. -/
theorem run_trace {R : σ → τ → Prop}
    (hstep : ∀ i s s' t, R s t → step i s = some s' →
      ∃ t', run step' (labels i s) t = some t' ∧ R s' t')
    {inputs : List ι} {s' : σ} {t : τ} (h0 : R s t) (hrun : run step inputs s = some s') :
    ∃ t', run step' (trace step labels inputs s) t = some t' ∧ R s' t' := by
  induction inputs generalizing s t with
  | nil =>
    obtain rfl := Option.some.inj hrun
    exact ⟨t, rfl, h0⟩
  | cons i inputs ih =>
    rw [run_cons] at hrun
    obtain ⟨r, hr, hrun⟩ := Option.bind_eq_some_iff.mp hrun
    obtain ⟨u, hu, hRu⟩ := hstep i s r t h0 hr
    obtain ⟨t', ht', hR⟩ := ih hRu hrun
    refine ⟨t', ?_, hR⟩
    rw [trace, run_append, hu, hr]
    exact ht'

end Runs
