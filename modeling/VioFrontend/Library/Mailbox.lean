import Mathlib.Tactic

/-!
# Mailboxes

A mailbox is a cell that every delivery overwrites, with the values still in flight to it in the
order in which they were posted. `Delivered a posted k m` says that `m` started with `a` in its
cell and that the first `k` of the posted values have arrived, so the cell holds the last one.
-/

structure Mailbox (α : Type*) where
  cell : α
  inFlight : List α
  deriving DecidableEq

namespace Mailbox

variable {α : Type*}

/-- Post a value, which arrives after those in flight. -/
def post (m : Mailbox α) (value : α) : Mailbox α := { m with inFlight := m.inFlight ++ [value] }

/-- The next value arrives. -/
def deliver (m : Mailbox α) : Option (Mailbox α) :=
  match m.inFlight with
  | [] => none
  | value :: inFlight => some ⟨value, inFlight⟩

structure Delivered (a : α) (posted : List α) (k : ℕ) (m : Mailbox α) : Prop where
  le_length : k ≤ posted.length
  cell : some m.cell = (a :: posted)[k]?
  inFlight : m.inFlight = posted.drop k

namespace Delivered

variable {a : α} {posted : List α} {k : ℕ} {m m' : Mailbox α}

lemma empty (a : α) : Delivered a [] 0 ⟨a, []⟩ := ⟨le_rfl, rfl, rfl⟩

lemma post (h : Delivered a posted k m) (value : α) :
    Delivered a (posted ++ [value]) k (m.post value) := by
  obtain ⟨hle, hcell, hinFlight⟩ := h
  have hk : k < (a :: posted).length := Nat.lt_succ_of_le hle
  refine ⟨hle.trans (by simp), ?_, ?_⟩
  · rw [Mailbox.post, hcell, ← List.cons_append, List.getElem?_append_left hk]
  · rw [Mailbox.post, hinFlight, List.drop_append_of_le_length hle]

lemma deliver (h : Delivered a posted k m) (hm : m.deliver = some m') :
    Delivered a posted (k + 1) m' := by
  obtain ⟨-, -, hinFlight⟩ := h
  rw [Mailbox.deliver] at hm
  split at hm
  · cases hm
  · rename_i value rest hrest
    obtain rfl := Option.some.inj hm
    have hdrop : posted.drop k = value :: rest := hinFlight.symm.trans hrest
    have hlt : k < posted.length := by
      by_contra hge
      rw [List.drop_eq_nil_of_le (not_lt.mp hge)] at hdrop
      cases hdrop
    rw [List.drop_eq_getElem_cons hlt] at hdrop
    obtain ⟨hvalue, hrest'⟩ := List.cons.inj hdrop
    refine ⟨hlt, ?_, hrest'.symm⟩
    rw [List.getElem?_cons_succ, List.getElem?_eq_getElem hlt, hvalue]

end Delivered

end Mailbox
