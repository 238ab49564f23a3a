import Mathlib.Tactic
import Mathlib.Data.Prod.Lex
import Mathlib.Order.Lex
import Mathlib.Data.List.Lex

/-!
# C strings

A C string is the list of its bytes before the terminating zero. `strcmp` compares byte by byte,
and the order in which shorter strings come first and strings of one length are compared by
`strcmp` is that of the key `(length, bytes)` in a linear order.
-/

namespace VioFrontend

/-- A C string: the bytes before its terminating zero. -/
structure CString where
  bytes : List UInt8
  zero_notMem : 0 ∉ bytes
deriving DecidableEq

namespace CString

def empty : CString := ⟨[], by simp⟩

def strlen (s : CString) : ℕ := s.bytes.length

/-- The difference of the first two bytes that differ, the terminating zero being one of them. -/
def compareBytes : List UInt8 → List UInt8 → ℤ
  | [], []           => 0
  | [], b :: _       => 0 - (b.toNat : ℤ)
  | a :: _, []       => (a.toNat : ℤ)
  | a :: as, b :: bs => if a = b then compareBytes as bs else (a.toNat : ℤ) - b.toNat

def strcmp (first second : CString) : ℤ := compareBytes first.bytes second.bytes

def byteKey (bytes : List UInt8) : ℕ ×ₗ List ℕ := toLex (bytes.length, bytes.map UInt8.toNat)

/-- The sorting key of a string. -/
def key (s : CString) : ℕ ×ₗ List ℕ := byteKey s.bytes

/-! ### The order of strings -/

lemma toNat_pos_of_mem {bytes : List UInt8} (h : 0 ∉ bytes) {b : UInt8} (hb : b ∈ bytes) :
    0 < b.toNat := by
  refine Nat.pos_of_ne_zero fun h0 => h ?_
  rwa [show b = 0 from UInt8.toNat_inj.mp h0] at hb

lemma compareBytes_neg_iff {as bs : List UInt8} (ha : 0 ∉ as) (hb : 0 ∉ bs) :
    compareBytes as bs < 0 ↔ as.map UInt8.toNat < bs.map UInt8.toNat := by
  induction as generalizing bs with
  | nil =>
    cases bs with
    | nil => simp [compareBytes]
    | cons b bs =>
      have hpos : 0 < b.toNat := toNat_pos_of_mem hb (List.mem_cons_self ..)
      simp [compareBytes, hpos]
  | cons a as ih =>
    cases bs with
    | nil => simp [compareBytes]
    | cons b bs =>
      rw [List.mem_cons, not_or] at ha hb
      simp only [compareBytes, List.map_cons, List.cons_lt_cons_iff]
      split_ifs with hab
      · subst hab
        simpa using ih ha.2 hb.2
      · have hne : a.toNat ≠ b.toNat := fun h => hab (UInt8.toNat_inj.mp h)
        simp only [hne, false_and, or_false]
        omega

lemma compareBytes_eq_zero_iff {as bs : List UInt8} (ha : 0 ∉ as) (hb : 0 ∉ bs) :
    compareBytes as bs = 0 ↔ as = bs := by
  induction as generalizing bs with
  | nil =>
    cases bs with
    | nil => simp [compareBytes]
    | cons b bs =>
      have hpos : 0 < b.toNat := toNat_pos_of_mem hb (List.mem_cons_self ..)
      simp [compareBytes, hpos.ne']
  | cons a as ih =>
    cases bs with
    | nil =>
      have hpos : 0 < a.toNat := toNat_pos_of_mem ha (List.mem_cons_self ..)
      simp [compareBytes, hpos.ne']
    | cons b bs =>
      rw [List.mem_cons, not_or] at ha hb
      simp only [compareBytes, List.cons.injEq]
      split_ifs with hab
      · simp [hab, ih ha.2 hb.2]
      · have hne : a.toNat ≠ b.toNat := fun h => hab (UInt8.toNat_inj.mp h)
        simp only [hab, false_and, iff_false]
        omega

lemma map_toNat_injective : Function.Injective (List.map UInt8.toNat) :=
  List.map_injective_iff.mpr fun _ _ => UInt8.toNat_inj.mp

lemma byteKey_lt_iff {as bs : List UInt8} :
    byteKey as < byteKey bs ↔ as.length < bs.length ∨
      (as.length = bs.length ∧ as.map UInt8.toNat < bs.map UInt8.toNat) :=
  Prod.Lex.toLex_lt_toLex

lemma key_lt_key_iff (a b : CString) :
    a.key < b.key ↔
      a.strlen < b.strlen ∨ (a.strlen = b.strlen ∧ strcmp a b < 0) := by
  rw [key, key, byteKey_lt_iff, strcmp, compareBytes_neg_iff a.zero_notMem b.zero_notMem]
  rfl

lemma key_le_key_iff (a b : CString) :
    a.key ≤ b.key ↔
      a.strlen < b.strlen ∨ (a.strlen = b.strlen ∧ strcmp a b ≤ 0) := by
  have heq : strcmp a b = 0 ↔ a.bytes.map UInt8.toNat = b.bytes.map UInt8.toNat := by
    rw [strcmp, compareBytes_eq_zero_iff a.zero_notMem b.zero_notMem]
    exact map_toNat_injective.eq_iff.symm
  rw [key, key, byteKey, byteKey, Prod.Lex.toLex_le_toLex, le_iff_lt_or_eq, le_iff_lt_or_eq, heq,
    strcmp, compareBytes_neg_iff a.zero_notMem b.zero_notMem]
  rfl

lemma key_injective : Function.Injective key := fun a b h => by
  have hbytes : a.bytes.map UInt8.toNat = b.bytes.map UInt8.toNat :=
    congrArg (fun k => (ofLex k).2) h
  cases a
  cases b
  congr 1
  exact map_toNat_injective hbytes

end CString

end VioFrontend
