import Mathlib.Tactic

/-!
# Relative walks in a tree

A node of a tree is given by the names on the way from the root to it, the last one first, so the
root is `[]` and the parent of `n :: d` is `d`. A walk stays, goes up (the root is its own
parent) or enters a child, which the tree finds by a search key.

What a walk does to the depth is fixed by two numbers: `ups`, the number of levels it leaves above
its start, and `downs`, the number of levels it ends below the highest node reached. With them one
can say when a walk from its own end comes back to that end.
-/

namespace TreeWalk

variable {N S : Type*}

inductive Step (S : Type*) where
  | stay
  | up
  | enter (key : S)
deriving DecidableEq

/-- The end of a walk; there is none if a child is missing. -/
def walk (child : List N → S → Option N) : List N → List (Step S) → Option (List N)
  | d, []                  => some d
  | d, .stay :: steps      => walk child d steps
  | d, .up :: steps        => walk child d.tail steps
  | d, .enter key :: steps => (child d key).bind fun n => walk child (n :: d) steps

/-- The levels that a walk leaves above its start. -/
def ups : List (Step S) → ℕ
  | []               => 0
  | .stay :: steps   => ups steps
  | .up :: steps     => ups steps + 1
  | .enter _ :: steps => ups steps - 1

/-- The levels between the highest node of a walk and its end. -/
def downs : List (Step S) → ℕ
  | []               => 0
  | .stay :: steps   => downs steps
  | .up :: steps     => downs steps
  | .enter _ :: steps => if ups steps = 0 then downs steps + 1 else downs steps

variable {child : List N → S → Option N} {d d' t t' : List N} {steps : List (Step S)}

lemma walk_append (steps steps' : List (Step S)) (d : List N) :
    walk child d (steps ++ steps') = (walk child d steps).bind fun t => walk child t steps' := by
  induction steps generalizing d with
  | nil => rfl
  | cons step steps ih =>
    cases step with
    | stay => exact ih d
    | up => exact ih d.tail
    | enter key =>
      simp only [List.cons_append, walk, Option.bind_assoc]
      exact congrArg _ (funext fun n => ih (n :: d))

/-- The part of the start that is left is the part of the end above the descent. -/
lemma drop_of_walk (h : walk child d steps = some t) :
    t.drop (downs steps) = d.drop (ups steps) := by
  induction steps generalizing d with
  | nil =>
    obtain rfl := Option.some.inj h
    rfl
  | cons step steps ih =>
    cases step with
    | stay => exact ih h
    | up => rw [downs, ups, ih h, List.drop_tail]
    | enter key =>
      obtain ⟨n, -, hn⟩ := Option.bind_eq_some_iff.mp h
      have hdrop := ih hn
      rw [downs, ups]
      split_ifs with h0
      · rw [h0] at hdrop ⊢
        rw [← List.tail_drop, hdrop]
        rfl
      · obtain ⟨k, hk⟩ := Nat.exists_eq_succ_of_ne_zero h0
        rw [hk] at hdrop ⊢
        exact hdrop

lemma length_of_walk (h : walk child d steps = some t) :
    t.length = downs steps + (d.length - ups steps) := by
  induction steps generalizing d with
  | nil =>
    obtain rfl := Option.some.inj h
    simp [downs, ups]
  | cons step steps ih =>
    cases step with
    | stay => exact ih h
    | up =>
      have hlen := ih h
      rw [List.length_tail] at hlen
      rw [downs, ups]
      omega
    | enter key =>
      obtain ⟨n, -, hn⟩ := Option.bind_eq_some_iff.mp h
      have hlen := ih hn
      rw [List.length_cons] at hlen
      rw [downs, ups]
      split_ifs <;> omega

/-- The end depends on the start only from where the walk does not leave it. -/
lemma walk_unique (h : walk child d steps = some t) (h' : walk child d' steps = some t')
    (hd : d.drop (ups steps) = d'.drop (ups steps)) : t = t' := by
  induction steps generalizing d d' with
  | nil =>
    obtain rfl := Option.some.inj h
    obtain rfl := Option.some.inj h'
    exact hd
  | cons step steps ih =>
    cases step with
    | stay => exact ih h h' hd
    | up => exact ih h h' (by rwa [List.drop_tail, List.drop_tail])
    | enter key =>
      obtain ⟨n, hn, hw⟩ := Option.bind_eq_some_iff.mp h
      obtain ⟨n', hn', hw'⟩ := Option.bind_eq_some_iff.mp h'
      rw [ups] at hd
      by_cases h0 : ups steps = 0
      · rw [h0] at hd
        obtain rfl : d = d' := hd
        obtain rfl : n = n' := Option.some.inj (hn.symm.trans hn')
        exact Option.some.inj (hw.symm.trans hw')
      · obtain ⟨k, hk⟩ := Nat.exists_eq_succ_of_ne_zero h0
        refine ih hw hw' ?_
        rw [hk] at hd ⊢
        exact hd

/-- A walk goes up as far as it comes down, or to the root and not further down than up. -/
def Balanced (d : List N) (steps : List (Step S)) : Prop :=
  ups steps = downs steps ∨ (d.length ≤ ups steps ∧ downs steps ≤ ups steps)

instance (d : List N) (steps : List (Step S)) : Decidable (Balanced d steps) :=
  inferInstanceAs (Decidable (_ ∨ _))

lemma ups_map_enter (keys : List S) : ups (keys.map Step.enter) = 0 := by
  induction keys with
  | nil => rfl
  | cons key keys ih => rw [List.map_cons, ups, ih]

lemma downs_map_enter (keys : List S) : downs (keys.map Step.enter) = keys.length := by
  induction keys with
  | nil => rfl
  | cons key keys ih => rw [List.map_cons, downs, if_pos (ups_map_enter keys), ih, List.length_cons]

/-- A walk that only comes down is not balanced. -/
lemma not_balanced_map_enter {keys : List S} (hne : keys ≠ []) (d : List N) :
    ¬ Balanced d (keys.map Step.enter) := by
  have hpos := List.length_pos_iff.mpr hne
  rw [Balanced, ups_map_enter, downs_map_enter]
  omega

/-- A walk comes back to its end from there exactly if it is balanced and can be made again. -/
theorem walk_end_iff (h : walk child d steps = some t) :
    walk child t steps = some t ↔
      (walk child d (steps ++ steps)).isSome = true ∧ Balanced d steps := by
  have hlen := length_of_walk h
  rw [walk_append, h, Option.bind_some]
  constructor
  · intro hagain
    have hlen' := length_of_walk hagain
    refine ⟨by rw [hagain]; rfl, ?_⟩
    rw [Balanced]
    omega
  · rintro ⟨hsome, hbal⟩
    obtain ⟨t', ht'⟩ := Option.isSome_iff_exists.mp hsome
    have hdrop : t.drop (ups steps) = d.drop (ups steps) := by
      rcases hbal with heq | ⟨hroot, hle⟩
      · rw [← drop_of_walk h, heq]
      · rw [List.drop_of_length_le hroot, List.drop_of_length_le (by omega)]
    rw [ht', walk_unique ht' h hdrop]

end TreeWalk
