import Mathlib.Tactic
import Mathlib.Data.List.Rotate

/-!
# Segments of an array

An array as the list of its cells, with accesses that fail outside of it. A computation on the
cells from index `xs.length` on is described on the decomposition `xs ++ (segment ++ zs)`: it
replaces the segment and leaves `xs` and `zs` as they are.

For sorting in place there are two rules: an exchange of two cells moves one cell in front of the
cells between them, and sorted segments on the two sides of a pivot make a sorted segment.
-/

namespace Segments

variable {α : Type*}

/-- Exchange the values of two cells; fails if one of them is outside of the array. -/
def exchange (cells : List α) (a b : ℕ) : Option (List α) := do
  let temp ← cells[a]?
  let other ← cells[b]?
  pure ((cells.set a other).set b temp)

lemma getElem?_at (xs zs : List α) (y : α) : (xs ++ y :: zs)[xs.length]? = some y := by
  simp

lemma getElem?_at_append (xs ys zs : List α) (z : α) :
    (xs ++ (ys ++ z :: zs))[xs.length + ys.length]? = some z := by
  rw [← List.append_assoc, ← List.length_append]
  exact getElem?_at _ _ _

lemma set_at (xs zs : List α) (y y' : α) : (xs ++ y :: zs).set xs.length y' = xs ++ y' :: zs := by
  simp

lemma set_at_append (xs ys zs : List α) (z z' : α) :
    (xs ++ (ys ++ z :: zs)).set (xs.length + ys.length) z' = xs ++ (ys ++ z' :: zs) := by
  rw [← List.append_assoc, ← List.length_append, set_at, List.append_assoc]

lemma exchange_comm (cells : List α) (a b : ℕ) : exchange cells a b = exchange cells b a := by
  rw [exchange, exchange]
  cases ha : cells[a]? with
  | none => cases cells[b]? <;> rfl
  | some x =>
    cases hb : cells[b]? with
    | none => rfl
    | some y =>
      simp only [Option.bind_eq_bind, Option.bind_some, Option.pure_def, Option.some.injEq]
      by_cases hab : a = b
      · subst hab
        rw [List.set_set, List.set_set]
        exact congrArg _ (Option.some.inj (ha.symm.trans hb))
      · exact List.set_comm _ _ hab

/-- An exchange with the first cell of a segment brings a cell to its front. -/
lemma exchange_rotate (xs ys zs : List α) (z : α) :
    exchange (xs ++ (ys ++ z :: zs)) xs.length (xs.length + ys.length)
      = some (xs ++ z :: (ys.rotate 1 ++ zs)) := by
  cases ys with
  | nil => simp [exchange]
  | cons y ys =>
    rw [exchange, getElem?_at_append, List.cons_append, getElem?_at]
    simp only [Option.bind_eq_bind, Option.bind_some, Option.pure_def, Option.some.injEq]
    have hset : (xs ++ z :: (ys ++ z :: zs)).set (xs.length + (y :: ys).length) y
        = xs ++ z :: (ys ++ y :: zs) := set_at_append xs (z :: ys) zs z y
    rw [set_at, hset]
    simp

/-! ### Sorted segments -/

/-- Two sorted segments and a pivot that is not below the first and not above the second. -/
lemma pairwise_pivot {r : α → α → Prop} [IsTrans α r] {lower upper : List α} {p : α}
    (hl : lower.Pairwise r) (hu : upper.Pairwise r) (hlp : ∀ x ∈ lower, r x p)
    (hpu : ∀ y ∈ upper, r p y) : (lower ++ p :: upper).Pairwise r := by
  refine List.pairwise_append.mpr ⟨hl, List.pairwise_cons.mpr ⟨hpu, hu⟩, fun x hx y hy => ?_⟩
  rcases List.mem_cons.mp hy with rfl | hy
  · exact hlp x hx
  · exact IsTrans.trans x p y (hlp x hx) (hpu y hy)

end Segments
