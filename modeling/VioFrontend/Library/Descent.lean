import Mathlib.Logic.Function.Iterate
import Mathlib.Tactic

/-!
# Descent loops

A descent loop makes steps as long as each point costs less than the one before and its step is
not small, up to a number of steps. The cost of a point is compared only after the loop has come
to it, so the points that it steps away from have decreasing costs, and that of the last point is
not bounded.
-/

namespace Descent

variable {α β : Type*} [LinearOrder β]

section

variable (step : α → α) (cost : α → β) (goesOn : α → Bool)

/-- The loop at `x` with at most `n` more steps after the next one. -/
def run : ℕ → β → α → α
  | 0, bound, x => if cost x < bound then step x else x
  | n + 1, bound, x =>
    if cost x < bound then
      if goesOn x then run n (cost x) (step x) else step x
    else x

/-- The loop from `x` makes its step `n`, counted from zero. -/
structure Makes (bound : β) (x : α) (n : ℕ) : Prop where
  start : cost x < bound
  decreases : ∀ m < n, cost (step^[m + 1] x) < cost (step^[m] x)
  large : ∀ m < n, goesOn (step^[m] x) = true

end

variable {step : α → α} {cost : α → β} {goesOn : α → Bool} {bound : β} {x : α} {m n : ℕ}

lemma makes_succ_iff : Makes step cost goesOn bound x (n + 1) ↔
    (cost x < bound ∧ goesOn x = true) ∧ Makes step cost goesOn (cost x) (step x) n := by
  constructor
  · intro h
    refine ⟨⟨h.start, h.large 0 (by omega)⟩, h.decreases 0 (by omega), fun m hm => ?_,
      fun m hm => ?_⟩
    · exact h.decreases (m + 1) (by omega)
    · exact h.large (m + 1) (by omega)
  · rintro ⟨⟨hstart, hlarge⟩, h⟩
    refine ⟨hstart, fun m hm => ?_, fun m hm => ?_⟩
    · cases m with
      | zero => exact h.start
      | succ m => exact h.decreases m (by omega)
    · cases m with
      | zero => exact hlarge
      | succ m => exact h.large m (by omega)

lemma run_of_not_lt (h : ¬ cost x < bound) : run step cost goesOn n bound x = x := by
  cases n with
  | zero => exact if_neg h
  | succ n => exact if_neg h

/-- No point that the loop comes to with a step to make costs more than the first one. -/
lemma Makes.cost_le (h : Makes step cost goesOn bound x n) (hm : m ≤ n) :
    cost (step^[m] x) ≤ cost x := by
  induction m with
  | zero => exact le_rfl
  | succ m ih => exact (h.decreases m (by omega)).le.trans (ih (by omega))

/-- The loop makes its next step when the last one was large and has lowered the cost. -/
lemma Makes.succ_iff (h : Makes step cost goesOn bound x n) :
    Makes step cost goesOn bound x (n + 1) ↔
      goesOn (step^[n] x) = true ∧ cost (step^[n + 1] x) < cost (step^[n] x) := by
  constructor
  · intro hnext
    exact ⟨hnext.large n (Nat.lt_succ_self n), hnext.decreases n (Nat.lt_succ_self n)⟩
  · rintro ⟨hlarge, hless⟩
    refine ⟨h.start, fun m hm => ?_, fun m hm => ?_⟩
    · rcases (Nat.lt_succ_iff.mp hm).eq_or_lt with rfl | hlt
      · exact hless
      · exact h.decreases m hlt
    · rcases (Nat.lt_succ_iff.mp hm).eq_or_lt with rfl | hlt
      · exact hlarge
      · exact h.large m hlt

/-- The loop makes its steps up to the first one that it does not make, or all that it may. -/
theorem run_eq_iterate (step : α → α) (cost : α → β) (goesOn : α → Bool) (n : ℕ) (bound : β)
    (x : α) :
    ∃ m ≤ n + 1, (∀ k < m, Makes step cost goesOn bound x k) ∧
      (m ≤ n → ¬ Makes step cost goesOn bound x m) ∧
      run step cost goesOn n bound x = step^[m] x := by
  induction n generalizing bound x with
  | zero =>
    by_cases hstart : cost x < bound
    · refine ⟨1, le_rfl, fun k hk => ?_, fun h => absurd h (by omega), if_pos hstart⟩
      obtain rfl : k = 0 := Nat.lt_one_iff.mp hk
      exact ⟨hstart, by simp, by simp⟩
    · exact ⟨0, by omega, by simp, fun _ h => hstart h.start, if_neg hstart⟩
  | succ n ih =>
    by_cases hstart : cost x < bound
    · have hzero : Makes step cost goesOn bound x 0 := ⟨hstart, by simp, by simp⟩
      rw [run, if_pos hstart]
      cases hlarge : goesOn x with
      | true =>
        obtain ⟨m, hm, hmakes, hends, hrun⟩ := ih (cost x) (step x)
        refine ⟨m + 1, by omega, fun k hk => ?_, fun hm h => ?_, hrun⟩
        · cases k with
          | zero => exact hzero
          | succ k => exact makes_succ_iff.mpr ⟨⟨hstart, hlarge⟩, hmakes k (by omega)⟩
        · exact hends (by omega) (makes_succ_iff.mp h).2
      | false =>
        refine ⟨1, by omega, fun k hk => ?_, fun _ h => ?_, rfl⟩
        · obtain rfl : k = 0 := Nat.lt_one_iff.mp hk
          exact hzero
        · exact absurd ((makes_succ_iff.mp h).1.2.symm.trans hlarge) (by simp)
    · exact ⟨0, by omega, by simp, fun _ h => hstart h.start, run_of_not_lt hstart⟩

/-- A run depends on the costs only through their order. -/
lemma run_congr {cost' : α → β} {bound' : β} (hcost : ∀ x y, cost' x < cost' y ↔ cost x < cost y)
    (hbound : cost' x < bound' ↔ cost x < bound) :
    run step cost' goesOn n bound' x = run step cost goesOn n bound x := by
  induction n generalizing bound bound' x with
  | zero => simp only [run, hbound]
  | succ n ih => simp only [run, hbound, ih (hcost (step x) x)]

end Descent
