import Mathlib.Tactic

/-!
# Tokens of a line

A reader that cuts a line at separators, skips empty tokens, and collects what a function reads
from each token, up to a capacity. A line written with one separator between its tokens is read
back token by token.
-/

namespace Tokens

variable {α β : Type*} [DecidableEq α]

/-- The next token and what follows the separator behind it; `none` at the end of the line. -/
def next (separator : α) (line : List α) : Option (List α × List α) :=
  match line.dropWhile (· = separator) with
  | []          => none
  | char :: rest => some ((char :: rest).takeWhile (· ≠ separator),
      ((char :: rest).dropWhile (· ≠ separator)).drop 1)

/-- Read the tokens one after the other; `none` when there are more than the capacity, or when they
are not read in `fuel` turns. -/
def collect (separator : α) (read : List α → β) (capacity : ℕ) :
    ℕ → List α → List β → Option (List β)
  | fuel, line, entries =>
    match next separator line with
    | none               => some entries
    | some (token, rest) =>
      if entries.length = capacity then none
      else
        match fuel with
        | 0        => none
        | fuel + 1 => collect separator read capacity fuel rest (entries ++ [read token])

/-- The tokens with one separator between them. -/
def join (separator : α) : List (List α) → List α
  | []              => []
  | [token]         => token
  | token :: tokens => token ++ separator :: join separator tokens

variable {separator : α} {token rest : List α}

omit [DecidableEq α] in
lemma join_cons (token : List α) {tokens : List (List α)} (h : tokens ≠ []) :
    join separator (token :: tokens) = token ++ separator :: join separator tokens := by
  obtain ⟨token', tokens, rfl⟩ := List.exists_cons_of_ne_nil h
  rfl

omit [DecidableEq α] in
/-- A line is not shorter than the number of its tokens. -/
lemma length_le_length_join {tokens : List (List α)} (h : ∀ token ∈ tokens, token ≠ []) :
    tokens.length ≤ (join separator tokens).length := by
  induction tokens with
  | nil => rfl
  | cons token tokens ih =>
    obtain ⟨hne, htokens⟩ := List.forall_mem_cons.mp h
    have hpos := List.length_pos_of_ne_nil hne
    cases tokens with
    | nil => exact hpos
    | cons token' tokens =>
      have hle := ih htokens
      rw [join_cons token (List.cons_ne_nil _ _)]
      simp only [List.length_append, List.length_cons] at hle ⊢
      omega

lemma next_of_takeWhile (hne : token ≠ []) (hsep : separator ∉ token)
    (hrest : rest = [] ∨ ∃ rest', rest = separator :: rest') :
    next separator (token ++ rest) = some (token, rest.drop 1) := by
  obtain ⟨char, token, rfl⟩ := List.exists_cons_of_ne_nil hne
  obtain ⟨hchar, htoken⟩ := not_or.mp (List.mem_cons.not.mp hsep)
  have hdrop : ((char :: token) ++ rest).dropWhile (· = separator) = char :: (token ++ rest) := by
    simp [Ne.symm hchar]
  have hall : ∀ x ∈ char :: token, decide (x ≠ separator) = true := by
    intro x hx
    simpa using ne_of_mem_of_not_mem hx hsep
  have htake : rest.takeWhile (· ≠ separator) = [] := by
    rcases hrest with rfl | ⟨rest', rfl⟩ <;> simp
  have hstop : rest.dropWhile (· ≠ separator) = rest := by
    rcases hrest with rfl | ⟨rest', rfl⟩ <;> simp
  rw [next, hdrop]
  simp only [← List.cons_append]
  rw [List.takeWhile_append_of_pos hall, List.dropWhile_append_of_pos hall, htake, hstop,
    List.append_nil]

lemma next_nil : next separator ([] : List α) = none := rfl

/-- A line of tokens that fit is read back. -/
theorem collect_join (read : List α → β) (capacity : ℕ) {tokens : List (List α)}
    (htokens : ∀ token ∈ tokens, token ≠ [] ∧ separator ∉ token) {fuel : ℕ} {entries : List β}
    (hfuel : tokens.length ≤ fuel) (hcapacity : entries.length + tokens.length ≤ capacity) :
    collect separator read capacity fuel (join separator tokens) entries
      = some (entries ++ tokens.map read) := by
  induction tokens generalizing fuel entries with
  | nil =>
    rw [collect.eq_def, join]
    simp only [next_nil, List.map_nil, List.append_nil]
  | cons token tokens ih =>
    obtain ⟨fuel, rfl⟩ := Nat.exists_eq_add_of_le' (Nat.one_le_of_lt hfuel)
    obtain ⟨⟨hne, hsep⟩, htokens⟩ := List.forall_mem_cons.mp htokens
    have hroom : entries.length ≠ capacity := by
      rw [List.length_cons] at hcapacity
      omega
    have hnext : next separator (join separator (token :: tokens))
        = some (token, join separator tokens) := by
      cases tokens with
      | nil =>
        have hlast := next_of_takeWhile hne hsep (Or.inl (rfl : ([] : List α) = []))
        simpa [join] using hlast
      | cons token' tokens =>
        exact next_of_takeWhile hne hsep (Or.inr ⟨_, rfl⟩)
    rw [collect.eq_def]
    simp only [hnext, if_neg hroom]
    rw [ih htokens (by simpa using hfuel) (by simp at hcapacity ⊢; omega), List.append_assoc,
      List.map_cons, List.singleton_append]

end Tokens
