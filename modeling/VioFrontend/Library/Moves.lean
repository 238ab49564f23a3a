import VioFrontend.Library.Loops

/-!
# Moving cells

A program moves the values of a store from cell to cell, one after another. If no move reads or
writes a cell that an earlier one has written, then in the end every destination holds what its
source held at first, also where the sources and the destinations overlap.
-/

namespace Moves

/-- Cells with partial accesses. -/
structure Store (σ κ α : Type*) where
  get : σ → κ → Option α
  set : σ → κ → α → Option σ

variable {σ κ α ι : Type*}

/-- A cell with a value can be overwritten. This changes no other cell, and `R` relates the old
store to the new one. -/
structure Store.Lawful (S : Store σ κ α) (R : σ → σ → Prop) : Prop where
  refl : ∀ s, R s s
  trans : ∀ s t u, R s t → R t u → R s u
  exists_set : ∀ s k v, (S.get s k).isSome = true →
    ∃ s', S.set s k v = some s' ∧ S.get s' k = some v ∧ (∀ j, j ≠ k → S.get s' j = S.get s j) ∧
      R s s'

/-- Move the value of a cell. -/
def Store.move (S : Store σ κ α) (source dest : κ) (s : σ) : Option σ :=
  (S.get s source).bind (S.set s dest)

/-- Move the values of cells, one after another. -/
def Store.moves (S : Store σ κ α) (source dest : ι → κ) (l : List ι) (s : σ) : Option σ :=
  l.foldlM (fun s i => S.move (source i) (dest i) s) s

/-- The cells of `l` are moved. -/
structure Moved (S : Store σ κ α) (R : σ → σ → Prop) (source dest : ι → κ) (l : List ι)
    (s s' : σ) : Prop where
  get_dest : ∀ i ∈ l, S.get s' (dest i) = S.get s (source i)
  get_of_ne : ∀ k, (∀ i ∈ l, dest i ≠ k) → S.get s' k = S.get s k
  rel : R s s'

variable {S : Store σ κ α} {R : σ → σ → Prop} {source dest : ι → κ} {l : List ι} {s : σ}

/-- The rule for moves in an order in which nothing is overwritten too early. -/
theorem exists_moves (hlawful : S.Lawful R)
    (horder : l.Pairwise fun i j => dest i ≠ source j ∧ dest i ≠ dest j)
    (hsource : ∀ i ∈ l, (S.get s (source i)).isSome = true)
    (hdest : ∀ i ∈ l, (S.get s (dest i)).isSome = true) :
    ∃ s', S.moves source dest l s = some s' ∧ Moved S R source dest l s s' := by
  induction l generalizing s with
  | nil => exact ⟨s, rfl, fun i hi => absurd hi List.not_mem_nil, fun _ _ => rfl, hlawful.refl s⟩
  | cons i l ih =>
    obtain ⟨hhead, htail⟩ := List.pairwise_cons.mp horder
    obtain ⟨v, hv⟩ := Option.isSome_iff_exists.mp (hsource i List.mem_cons_self)
    obtain ⟨s₁, hset, hself, hother, hrel⟩ :=
      hlawful.exists_set s (dest i) v (hdest i List.mem_cons_self)
    have hsource₁ : ∀ j ∈ l, S.get s₁ (source j) = S.get s (source j) :=
      fun j hj => hother _ (hhead j hj).1.symm
    have hdest₁ : ∀ j ∈ l, S.get s₁ (dest j) = S.get s (dest j) :=
      fun j hj => hother _ (hhead j hj).2.symm
    obtain ⟨s₂, hmoves, hmoved⟩ := ih htail
      (fun j hj => by rw [hsource₁ j hj]; exact hsource j (List.mem_cons_of_mem i hj))
      (fun j hj => by rw [hdest₁ j hj]; exact hdest j (List.mem_cons_of_mem i hj))
    refine ⟨s₂, ?_, ?_, ?_, hlawful.trans s s₁ s₂ hrel hmoved.rel⟩
    · rw [Store.moves, List.foldlM_cons, Store.move, hv, Option.bind_some, hset]
      exact hmoves
    · rintro j (_ | ⟨_, hj⟩)
      · rw [hmoved.get_of_ne _ fun k hk heq => (hhead k hk).2 heq.symm, hself, hv]
      · rw [hmoved.get_dest j hj, hsource₁ j hj]
    · intro k hk
      rw [hmoved.get_of_ne k fun j hj => hk j (List.mem_cons_of_mem i hj),
        hother k (hk i List.mem_cons_self).symm]

/-- What could be read before can still be read. -/
lemma Moved.isSome {s' : σ} {k : κ} (h : Moved S R source dest l s s')
    (hsource : ∀ i ∈ l, (S.get s (source i)).isSome = true) (hk : (S.get s k).isSome = true) :
    (S.get s' k).isSome = true := by
  by_cases hmem : ∃ i ∈ l, dest i = k
  · obtain ⟨i, hi, rfl⟩ := hmem
    rw [h.get_dest i hi]
    exact hsource i hi
  · rw [h.get_of_ne k fun i hi heq => hmem ⟨i, hi, heq⟩]
    exact hk

lemma moves_append (l l' : List ι) (s : σ) :
    S.moves source dest (l ++ l') s
      = S.moves source dest l s >>= S.moves source dest l' := List.foldlM_append

lemma moves_map {ι' : Type*} (f : ι' → ι) (l : List ι') (s : σ) :
    S.moves source dest (l.map f) s
      = S.moves (fun i => source (f i)) (fun i => dest (f i)) l s := List.foldlM_map

/-- A loop of moves is the moves of its turns. -/
lemma moves_flatMap {ι' : Type*} (f : ι' → List ι) (l : List ι') (s : σ) :
    S.moves source dest (l.flatMap f) s
      = l.foldlM (fun s i => S.moves source dest (f i) s) s := by
  induction l generalizing s with
  | nil => rfl
  | cons i l ih =>
    rw [List.flatMap_cons, moves_append, List.foldlM_cons]
    exact congrArg _ (funext ih)

end Moves
