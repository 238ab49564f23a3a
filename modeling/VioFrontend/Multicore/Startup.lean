import Mathlib.Tactic

/-!
# Waiting for the startup data

The slave's `initialise` asks for the startup data until the call succeeds or the time-out is
over. It does not look at the status after that: it reads the clock again and takes a reading
above the time-out as a failure. Its two mistakes are a time-out that the second reading does not
show yet, and a success that it sees too late.
-/

namespace VioFrontend

/-- `CORE1_BOOT_TIMEOUT`. -/
def core1BootTimeout : UInt32 := 2000

/-- What the calls of `MCMGR_GetStartupData` and of `clock::ms` give, in the order of the calls. A
call of the first kind stores an address, or it does not succeed and stores nothing. -/
structure StartupInputs where
  startupData : ℕ → Option UInt32
  ms : ℕ → UInt32

/-- The variables of the loop, and the number of calls and of clock readings so far. -/
structure Polling where
  calls : ℕ
  readings : ℕ
  rpmsgBaseAddress : UInt32
  success : Bool
  deriving DecidableEq

/-- What `initialise` goes on with. -/
inductive StartupResult
  /-- It returns false. -/
  | failed
  /-- It sets up the link with the memory at this address. -/
  | setsUpLink (rpmsgBaseAddress : UInt32)
  deriving DecidableEq

namespace StartupInputs

variable (inputs : StartupInputs)

/-- `status = MCMGR_GetStartupData(&rpmsg_base_address)`. -/
def getStartupData (s : Polling) : Polling :=
  match inputs.startupData s.calls with
  | some address =>
    { s with calls := s.calls + 1, rpmsgBaseAddress := address, success := true }
  | none => { s with calls := s.calls + 1, success := false }

/-- The do-while loop, for at most the given number of iterations. -/
def poll (start : UInt32) : ℕ → Polling → Option Polling
  | 0, _ => none
  | fuel + 1, s =>
    let s := inputs.getStartupData s
    -- the clock is read only after a call that did not succeed
    if s.success then some s
    else
      let now := inputs.ms s.readings
      let s := { s with readings := s.readings + 1 }
      if now - start < core1BootTimeout then poll start fuel s else some s

/-- The slave's `initialise` up to the set-up of the link. `rpmsg_base_address` is a static
variable, which starts as zero. -/
def initialise (fuel : ℕ) : Option (Polling × StartupResult) := do
  let start := inputs.ms 0
  let s ← inputs.poll start fuel ⟨0, 1, 0, false⟩
  let now := inputs.ms s.readings
  if now - start > core1BootTimeout then return (s, .failed)
  else return (s, .setsUpLink s.rpmsgBaseAddress)

/-- The link is set up with the address that the last call of the loop gave, and not at all when
that call did not succeed. -/
def Truthful (s : Polling) (result : StartupResult) : Prop :=
  match inputs.startupData (s.calls - 1) with
  | some address => result = .setsUpLink address
  | none => result = .failed

/-- The time from the first reading to another one. -/
def elapsed (reading : ℕ) : UInt32 := inputs.ms reading - inputs.ms 0

/-- The first `n` calls do not succeed, and the time is not over after any of them. -/
def Waits (n : ℕ) : Prop :=
  ∀ k < n, inputs.startupData k = none ∧ inputs.elapsed (k + 1) < core1BootTimeout

/-- The reading after a success shows no more than the time-out, and the reading after the one
that ends a wait in vain shows more. -/
def Timely : Prop :=
  (∀ n, inputs.Waits n → inputs.startupData n ≠ none →
    inputs.elapsed (n + 1) ≤ core1BootTimeout) ∧
  ∀ n, inputs.Waits n → inputs.startupData n = none →
    core1BootTimeout ≤ inputs.elapsed (n + 1) → core1BootTimeout < inputs.elapsed (n + 2)

variable {inputs}

lemma Waits.succ {n : ℕ} (h : inputs.Waits n) (hnone : inputs.startupData n = none)
    (htime : inputs.elapsed (n + 1) < core1BootTimeout) : inputs.Waits (n + 1) := by
  intro k hk
  rcases Nat.lt_succ_iff_lt_or_eq.mp hk with hlt | rfl
  · exact h k hlt
  · exact ⟨hnone, htime⟩

/-- The wait can end after one call only. -/
lemma Waits.le {n N : ℕ} (h : inputs.Waits N)
    (hn : inputs.startupData n ≠ none ∨ core1BootTimeout ≤ inputs.elapsed (n + 1)) : N ≤ n := by
  by_contra hlt
  obtain ⟨hnone, htime⟩ := h n (not_le.mp hlt)
  rcases hn with hsome | hover
  · exact hsome hnone
  · exact absurd htime (UInt32.not_lt.mpr hover)

/-- How the loop ends: with a success, or with a failure when the time is over. -/
inductive Ends (inputs : StartupInputs) (n : ℕ) (s : Polling) : Prop
  | received (address : UInt32) (hdata : inputs.startupData n = some address)
      (hs : s = ⟨n + 1, n + 1, address, true⟩)
  | inVain (address : UInt32) (hdata : inputs.startupData n = none)
      (hover : core1BootTimeout ≤ inputs.elapsed (n + 1)) (hs : s = ⟨n + 1, n + 2, address, false⟩)

lemma poll_spec {fuel n : ℕ} {address : UInt32} {success : Bool} {s : Polling}
    (hwaits : inputs.Waits n)
    (h : inputs.poll (inputs.ms 0) fuel ⟨n, n + 1, address, success⟩ = some s) :
    ∃ N, inputs.Waits N ∧ Ends inputs N s := by
  induction fuel generalizing n success with
  | zero => cases h
  | succ fuel ih =>
    rw [poll, getStartupData] at h
    cases hdata : inputs.startupData n with
    | some received =>
      simp only [hdata, if_true, Option.some.injEq] at h
      exact ⟨n, hwaits, .received received hdata h.symm⟩
    | none =>
      simp only [hdata, Bool.false_eq_true, if_false] at h
      split_ifs at h with htime
      · exact ih (hwaits.succ hdata htime) h
      · obtain rfl := Option.some.inj h
        exact ⟨n, hwaits, .inVain address hdata (UInt32.not_lt.mp htime) rfl⟩

/-- After a success only the reading that follows it matters. -/
lemma timely_iff_of_received {N : ℕ} {address : UInt32} (hwaits : inputs.Waits N)
    (hdata : inputs.startupData N = some address) :
    inputs.Timely ↔ inputs.elapsed (N + 1) ≤ core1BootTimeout := by
  have hsome : inputs.startupData N ≠ none := hdata ▸ Option.some_ne_none address
  constructor
  · exact fun h => h.1 N hwaits hsome
  · refine fun h => ⟨fun n hn hn' => ?_, fun n hn hnone hover => ?_⟩
    · obtain rfl : n = N := le_antisymm (hn.le (Or.inl hsome)) (hwaits.le (Or.inl hn'))
      exact h
    · obtain rfl : n = N := le_antisymm (hn.le (Or.inl hsome)) (hwaits.le (Or.inr hover))
      exact absurd hnone hsome

/-- After a wait in vain only the second reading that follows it matters. -/
lemma timely_iff_of_inVain {N : ℕ} (hwaits : inputs.Waits N)
    (hdata : inputs.startupData N = none) (hover : core1BootTimeout ≤ inputs.elapsed (N + 1)) :
    inputs.Timely ↔ core1BootTimeout < inputs.elapsed (N + 2) := by
  constructor
  · exact fun h => h.2 N hwaits hdata hover
  · refine fun h => ⟨fun n hn hsome => ?_, fun n hn hnone hover' => ?_⟩
    · obtain rfl : n = N := le_antisymm (hn.le (Or.inr hover)) (hwaits.le (Or.inl hsome))
      exact absurd hdata hsome
    · obtain rfl : n = N := le_antisymm (hn.le (Or.inr hover)) (hwaits.le (Or.inr hover'))
      exact h

/-- The result of a call whose loop has ended is truthful exactly when its readings are timely. -/
theorem initialise_truthful_iff (inputs : StartupInputs) (fuel : ℕ) (s : Polling)
    (result : StartupResult) (h : inputs.initialise fuel = some (s, result)) :
    inputs.Truthful s result ↔ inputs.Timely := by
  obtain ⟨t, hpoll, h⟩ := Option.bind_eq_some_iff.mp h
  obtain ⟨N, hwaits, hends⟩ := poll_spec (n := 0) (fun k hk => absurd hk (Nat.not_lt_zero k)) hpoll
  cases hends with
  | received address hdata ht =>
    subst ht
    rw [timely_iff_of_received hwaits hdata]
    simp only [gt_iff_lt] at h
    split_ifs at h with hlate
    · obtain ⟨rfl, rfl⟩ := Prod.mk.inj (Option.some.inj h)
      exact iff_of_false (by simp [Truthful, hdata]) (UInt32.not_le.mpr hlate)
    · obtain ⟨rfl, rfl⟩ := Prod.mk.inj (Option.some.inj h)
      exact iff_of_true (by simp [Truthful, hdata]) (UInt32.not_lt.mp hlate)
  | inVain address hdata hover ht =>
    subst ht
    rw [timely_iff_of_inVain hwaits hdata hover]
    simp only [gt_iff_lt] at h
    split_ifs at h with hlate
    · obtain ⟨rfl, rfl⟩ := Prod.mk.inj (Option.some.inj h)
      exact iff_of_true (by simp [Truthful, hdata]) hlate
    · obtain ⟨rfl, rfl⟩ := Prod.mk.inj (Option.some.inj h)
      exact iff_of_false (by simp [Truthful, hdata]) hlate

/-- The address comes with the third call, while the clock passes zero. -/
def inTime : StartupInputs where
  startupData n := if n = 2 then some 0x20240000 else none
  ms n := 4294967290 + 5 * UInt32.ofNat n

/-- No address comes, and the time-out is over with both last readings at 2000. -/
def atTheTimeout : StartupInputs where
  startupData _ := none
  ms n := if n = 0 then 0 else 2000

/-- The readings are timely in the first case, so the result is truthful, and not in the second. -/
theorem initialise_truthful_iff_inTime :
    (inTime.Truthful ⟨3, 3, 0x20240000, true⟩ (.setsUpLink 0x20240000) ∧ inTime.Timely) ∧
      ¬ atTheTimeout.Truthful ⟨1, 2, 0, false⟩ (.setsUpLink 0) ∧ ¬ atTheTimeout.Timely := by
  have hiff := initialise_truthful_iff inTime 3 ⟨3, 3, 0x20240000, true⟩
    (.setsUpLink 0x20240000) (by decide)
  have hiff' := initialise_truthful_iff atTheTimeout 1 ⟨1, 2, 0, false⟩ (.setsUpLink 0) (by decide)
  have hnot : ¬ atTheTimeout.Truthful ⟨1, 2, 0, false⟩ (.setsUpLink 0) :=
    fun h => StartupResult.noConfusion h
  exact ⟨⟨rfl, hiff.mp rfl⟩, hnot, fun h => hnot (hiff'.mpr h)⟩

/-- The address comes with the first call, and the next reading is 2001. -/
def lateSuccess : StartupInputs where
  startupData _ := some 0x20240000
  ms n := if n = 0 then 0 else 2001

/-- The link is set up at the address zero, which was not received, and a received address is
taken for a time-out. -/
theorem initialise_not_truthful :
    (atTheTimeout.initialise 1 = some (⟨1, 2, 0, false⟩, .setsUpLink 0) ∧
      ¬ atTheTimeout.Truthful ⟨1, 2, 0, false⟩ (.setsUpLink 0)) ∧
    (lateSuccess.initialise 1 = some (⟨1, 1, 0x20240000, true⟩, .failed) ∧
      ¬ lateSuccess.Truthful ⟨1, 1, 0x20240000, true⟩ .failed) := by
  refine ⟨⟨by decide, ?_⟩, by decide, ?_⟩
  · exact fun h => StartupResult.noConfusion h
  · exact fun h => StartupResult.noConfusion h

end StartupInputs

end VioFrontend
