import VioFrontend.Library.Tokens
import VioFrontend.Util.Quicksort

/-!
# Numbers as text

What `%d` prints, and what `strtol` with base 10 reads: blanks, a sign, digits, and then it stops.
A printed 32-bit number is read back, also behind a blank and before other text.
-/

namespace VioFrontend

namespace CString

/-- The text of a number printed with `%d`, which for a 32-bit one is that of `%ld`. -/
def formatInt (n : ℤ) : List UInt8 :=
  if n < 0 then 45 :: decimal n.natAbs else decimal n.natAbs

def isSpace (c : UInt8) : Bool := c = 32 || (9 ≤ c && c ≤ 13)

def isDigit (c : UInt8) : Bool := 48 ≤ c && c ≤ 57

/-- The value of the digits at the start of a text. -/
def parseDigits (s : List UInt8) : ℕ :=
  (s.takeWhile isDigit).foldl (fun n c => 10 * n + (c.toNat - 48)) 0

/-- The sign at the start of a text, and what comes after it. -/
def parseSign : List UInt8 → Bool × List UInt8
  | 45 :: s => (true, s)
  | 43 :: s => (false, s)
  | s       => (false, s)

/-- `strtol(s, NULL, 10)`, where a `long` has 32 bits; without digits it is 0. -/
def strtol (s : List UInt8) : ℤ :=
  let (negative, s) := parseSign (s.dropWhile isSpace)
  let n : ℤ := parseDigits s
  max (-2 ^ 31) (min (2 ^ 31 - 1) (if negative then -n else n))

/-! ### Reading a printed number -/

lemma isDigit_of_mem_decimal {n : ℕ} {c : UInt8} (h : c ∈ decimal n) : isDigit c = true := by
  have hdigit : ∀ d < 10, isDigit (UInt8.ofNat (48 + d)) = true := by decide
  induction n using Nat.strong_induction_on with
  | _ n ih =>
    rcases Nat.lt_or_ge n 10 with hlt | hge
    · rw [decimal_of_lt hlt, List.mem_singleton] at h
      rw [h]
      exact hdigit n hlt
    · rw [decimal_of_le hge, List.mem_append, List.mem_singleton] at h
      rcases h with h | rfl
      · exact ih (n / 10) (by omega) h
      · exact hdigit _ (Nat.mod_lt n (by decide))

/-- The digits of a number give the number. -/
lemma foldl_decimal (n : ℕ) :
    (decimal n).foldl (fun n c => 10 * n + (c.toNat - 48)) 0 = n := by
  induction n using Nat.strong_induction_on with
  | _ n ih =>
    rcases Nat.lt_or_ge n 10 with hlt | hge
    · rw [decimal_of_lt hlt, List.foldl_cons, List.foldl_nil, toNat_digit hlt]
      omega
    · rw [decimal_of_le hge, List.foldl_append, ih (n / 10) (by omega), List.foldl_cons,
        List.foldl_nil, toNat_digit (Nat.mod_lt n (by decide))]
      omega

/-- The text after a number does not go on with a digit. -/
def EndsNumber (rest : List UInt8) : Prop := ∀ c ∈ rest.head?, isDigit c = false

lemma parseDigits_decimal (n : ℕ) {rest : List UInt8} (hrest : EndsNumber rest) :
    parseDigits (decimal n ++ rest) = n := by
  have hstop : rest.takeWhile isDigit = [] := by
    cases rest with
    | nil => rfl
    | cons c rest => simp [hrest c rfl]
  rw [parseDigits, List.takeWhile_append_of_pos fun c => isDigit_of_mem_decimal, hstop,
    List.append_nil, foldl_decimal]

/-- The first byte of a printed number is no blank, and a sign only in front of a negative one. -/
lemma exists_cons_decimal (n : ℕ) : ∃ c s, decimal n = c :: s ∧ isDigit c = true := by
  obtain ⟨c, s, h⟩ := List.exists_cons_of_ne_nil (decimal_ne_nil n)
  exact ⟨c, s, h, isDigit_of_mem_decimal (h ▸ List.mem_cons_self)⟩

lemma parseSign_of_isDigit {c : UInt8} (h : isDigit c = true) (s : List UInt8) :
    parseSign (c :: s) = (false, c :: s) := by
  have hminus : c ≠ 45 := by
    rintro rfl
    exact absurd h (by decide)
  have hplus : c ≠ 43 := by
    rintro rfl
    exact absurd h (by decide)
  rw [parseSign.eq_def]
  simp [hminus, hplus]

lemma isSpace_of_isDigit {c : UInt8} (h : isDigit c = true) : isSpace c = false := by
  simp only [isDigit, Bool.and_eq_true, decide_eq_true_eq, UInt8.le_iff_toNat_le] at h
  have h32 : c ≠ 32 := by
    rintro rfl
    exact absurd h.1 (by decide)
  have h13 : ¬ c ≤ 13 := fun hle => absurd (h.1.trans (UInt8.le_iff_toNat_le.mp hle)) (by decide)
  simp [isSpace, h32, h13]

/-- A text that starts with no blank is read after the blanks before it. -/
lemma dropWhile_blanks {blanks s : List UInt8} (hblanks : ∀ c ∈ blanks, isSpace c = true)
    (hs : ∀ c ∈ s.head?, isSpace c = false) : (blanks ++ s).dropWhile isSpace = s := by
  rw [List.dropWhile_append_of_pos hblanks]
  cases s with
  | nil => rfl
  | cons c s => simp [hs c rfl]

/-- A printed number is read back, behind any blanks and before any text that does not go on with
a digit. -/
lemma strtol_formatInt {n : ℤ} (hn : -2 ^ 31 ≤ n ∧ n < 2 ^ 31) {blanks rest : List UInt8}
    (hblanks : ∀ c ∈ blanks, isSpace c = true) (hrest : EndsNumber rest) :
    strtol (blanks ++ (formatInt n ++ rest)) = n := by
  obtain ⟨c, s, hdecimal, hdigit⟩ := exists_cons_decimal n.natAbs
  have hparse := parseDigits_decimal n.natAbs hrest
  rw [strtol, formatInt]
  split_ifs with hneg
  · have hs : ∀ c ∈ (45 :: decimal n.natAbs ++ rest).head?, isSpace c = false := by
      rintro _ ⟨⟩
      decide
    have hsign : parseSign (45 :: decimal n.natAbs ++ rest) = (true, decimal n.natAbs ++ rest) :=
      rfl
    rw [dropWhile_blanks hblanks hs, hsign]
    simp only [hparse, if_true]
    omega
  · have hs : ∀ c ∈ (decimal n.natAbs ++ rest).head?, isSpace c = false := by
      rw [hdecimal]
      rintro _ ⟨⟩
      exact isSpace_of_isDigit hdigit
    have hsign : parseSign (decimal n.natAbs ++ rest) = (false, decimal n.natAbs ++ rest) := by
      rw [hdecimal]
      exact parseSign_of_isDigit hdigit (s ++ rest)
    rw [dropWhile_blanks hblanks hs, hsign]
    simp only [hparse, Bool.false_eq_true, if_false]
    omega

/-- Only digits and a minus sign are printed. -/
lemma notMem_formatInt {c : UInt8} (hdigit : isDigit c = false) (hminus : c ≠ 45) (n : ℤ) :
    c ∉ formatInt n := by
  have hdigits : c ∉ decimal n.natAbs := fun h =>
    Bool.false_ne_true (hdigit.symm.trans (isDigit_of_mem_decimal h))
  rw [formatInt]
  split_ifs
  · exact List.not_mem_cons_of_ne_of_not_mem hminus hdigits
  · exact hdigits

/-! ### Lists of numbers -/

/-- The numbers separated by a comma and a blank. -/
def formatInts : List ℤ → List UInt8
  | []           => []
  | [n]          => formatInt n
  | n :: m :: ns => formatInt n ++ [44, 32] ++ formatInts (m :: ns)

/-- Only digits, minus signs, commas and blanks are printed. -/
lemma notMem_formatInts {c : UInt8} (hdigit : isDigit c = false) (hminus : c ≠ 45) (hcomma : c ≠ 44)
    (hblank : c ≠ 32) (ns : List ℤ) : c ∉ formatInts ns := by
  have hnumber := notMem_formatInt hdigit hminus
  induction ns with
  | nil => exact List.not_mem_nil
  | cons n ns ih =>
    cases ns with
    | nil => exact hnumber n
    | cons m ns =>
      rw [formatInts]
      simp [hnumber n, ih, hcomma, hblank]

/-- The parts between the commas of such a text that ends with a carriage return; the text may
start with blanks. -/
def lineTokens (blanks : List UInt8) : List ℤ → List (List UInt8)
  | []           => [blanks ++ [13]]
  | [n]          => [blanks ++ (formatInt n ++ [13])]
  | n :: m :: ns => (blanks ++ (formatInt n ++ [])) :: lineTokens [32] (m :: ns)

lemma join_lineTokens (blanks : List UInt8) (ns : List ℤ) :
    Tokens.join 44 (lineTokens blanks ns) = blanks ++ formatInts ns ++ [13] := by
  induction ns generalizing blanks with
  | nil => simp [lineTokens, Tokens.join, formatInts]
  | cons n ns ih =>
    cases ns with
    | nil => simp [lineTokens, Tokens.join, formatInts]
    | cons m ns =>
      have hne : lineTokens [32] (m :: ns) ≠ [] := by cases ns <;> simp [lineTokens]
      rw [lineTokens, Tokens.join_cons _ hne, ih, formatInts]
      simp

lemma length_lineTokens (blanks : List UInt8) (ns : List ℤ) :
    (lineTokens blanks ns).length = max 1 ns.length := by
  induction ns generalizing blanks with
  | nil => rfl
  | cons n ns ih =>
    cases ns with
    | nil => rfl
    | cons m ns =>
      rw [lineTokens, List.length_cons, ih]
      simp

/-- The parts are tokens of the line. -/
lemma isToken_of_mem_lineTokens {blanks : List UInt8} (hblanks : 44 ∉ blanks) {ns : List ℤ}
    {token : List UInt8} (h : token ∈ lineTokens blanks ns) : token ≠ [] ∧ 44 ∉ token := by
  have hcomma := fun n => notMem_formatInt (c := 44) (by decide) (by decide) n
  have hprinted : ∀ n, formatInt n ≠ [] := fun n => by
    rw [formatInt]
    split_ifs
    · exact List.cons_ne_nil _ _
    · exact decimal_ne_nil _
  induction ns generalizing blanks with
  | nil =>
    obtain rfl := List.mem_singleton.mp h
    simp [hblanks]
  | cons n ns ih =>
    cases ns with
    | nil =>
      obtain rfl := List.mem_singleton.mp h
      simp [hblanks, hcomma]
    | cons m ns =>
      rcases List.mem_cons.mp h with rfl | h
      · simp [hblanks, hcomma, hprinted]
      · exact ih (by decide) h

/-- The numbers are read back from the tokens; a line without numbers is read as a single 0. -/
lemma map_strtol_lineTokens {blanks : List UInt8} (hblanks : ∀ c ∈ blanks, isSpace c = true)
    {ns : List ℤ} (hns : ∀ n ∈ ns, -2 ^ 31 ≤ n ∧ n < 2 ^ 31) :
    (lineTokens blanks ns).map strtol = if ns = [] then [0] else ns := by
  induction ns generalizing blanks with
  | nil =>
    have hblank : strtol (blanks ++ [13]) = 0 := by
      have hall : ∀ c ∈ blanks ++ [13], isSpace c = true := by
        intro c hc
        rcases List.mem_append.mp hc with hc | hc
        · exact hblanks c hc
        · obtain rfl := List.mem_singleton.mp hc
          decide
      have hdrop := dropWhile_blanks (s := []) hall (fun c hc => by cases hc)
      rw [List.append_nil] at hdrop
      rw [strtol, hdrop]
      decide
    simp [lineTokens, hblank]
  | cons n ns ih =>
    obtain ⟨hn, hns⟩ := List.forall_mem_cons.mp hns
    cases ns with
    | nil =>
      have hread : strtol (blanks ++ (formatInt n ++ [13])) = n :=
        strtol_formatInt hn hblanks (by rintro _ ⟨⟩; decide)
      simp [lineTokens, hread]
    | cons m ns =>
      have hread : strtol (blanks ++ (formatInt n ++ [])) = n :=
        strtol_formatInt hn hblanks (by rintro _ ⟨⟩)
      rw [lineTokens, List.map_cons, hread, ih (by simp [isSpace]) hns]
      simp

/-- A printed line of numbers is read back. -/
lemma collect_formatInts {β : Type*} (convert : ℤ → β) {ns : List ℤ}
    (hns : ∀ n ∈ ns, -2 ^ 31 ≤ n ∧ n < 2 ^ 31) {capacity : ℕ} (hcapacity : 0 < capacity)
    (hfits : ns.length ≤ capacity) :
    Tokens.collect 44 (fun token => convert (strtol token)) capacity
        ((formatInts ns ++ [13]).length) (formatInts ns ++ [13]) []
      = some ((if ns = [] then [0] else ns).map convert) := by
  have htoken : ∀ token ∈ lineTokens [] ns, token ≠ [] ∧ 44 ∉ token := fun token h =>
    isToken_of_mem_lineTokens List.not_mem_nil h
  have hline : formatInts ns ++ [13] = Tokens.join 44 (lineTokens [] ns) := by
    rw [join_lineTokens, List.nil_append]
  have hlength := length_lineTokens [] ns
  have hfuel : (lineTokens [] ns).length ≤ (Tokens.join 44 (lineTokens [] ns)).length :=
    Tokens.length_le_length_join fun token h => (htoken token h).1
  have hread : (lineTokens [] ns).map (fun token => convert (strtol token))
      = ((lineTokens [] ns).map strtol).map convert := (List.map_map ..).symm
  rw [hline, Tokens.collect_join _ _ htoken hfuel (by simp; omega), List.nil_append, hread,
    map_strtol_lineTokens (by simp) hns]

end CString

end VioFrontend
