import VioFrontend.Multicore.Handshake

/-!
# Messages at start-up

The master may send as soon as its `initialise` has returned. The slave has its endpoint by then,
but it registers its message callback only after its own `initialise` has returned, and a message
that arrives before is released.
-/

namespace VioFrontend

variable {μ : Type} {s s' : Cores μ}

/-- The messages that the slave's registered callback has been called with. -/
def Cores.handed (s : Cores μ) : List μ :=
  (s.taken.filter fun t => t.2 = .handed).map Prod.fst

/-- Every message that was sent and has reached the endpoint is handed to the callback once. -/
structure NoMessageLost (s : Cores μ) : Prop where
  once : s.sent = s.handed ++ s.ring
  handed : ∀ t ∈ s.taken, t.2 = .handed

/-- A message interrupt is taken after the message callback has been registered. -/
def Registered : Action μ → Cores μ → Prop
  | .messageInterrupt, s => s.messageCallback = true
  | _, _ => True

instance : ∀ (a : Action μ) (s : Cores μ), Decidable (Registered a s)
  | .messageInterrupt, s => inferInstanceAs (Decidable (s.messageCallback = true))
  | .master, _ | .slave, _ | .timeout, _ | .startupInterrupt, _ | .eventInterrupt, _
  | .kickInterrupt, _ | .send _, _ => isTrue trivial

/-! ### What a step does to the messages -/

/-- The messages are as before. -/
structure KeepsMessages (s s' : Cores μ) : Prop where
  master : s.master.executed ≤ s'.master.executed
  sent : s'.sent = s.sent
  ring : s'.ring = s.ring
  taken : s'.taken = s.taken

lemma step_keepsMessages {a : Action μ} (h : Cores.step a s = some s')
    (hsend : ∀ message, a ≠ .send message) (hinterrupt : a ≠ .messageInterrupt) :
    KeepsMessages s s' := by
  cases a with
  | master =>
    rcases masterStep_cases h with rfl | ⟨pc, hpc, -, -, rfl⟩
    · exact ⟨le_rfl, rfl, rfl, rfl⟩
    · exact ⟨hpc ▸ Nat.le_succ _, rfl, rfl, rfl⟩
  | slave =>
    rcases slaveStep_cases h with ⟨startupData, messageCallback, rfl⟩ | ⟨pc, -, -, -, rfl⟩
    · exact ⟨le_rfl, rfl, rfl, rfl⟩
    · exact ⟨le_rfl, rfl, rfl, rfl⟩
  | timeout =>
    simp only [Cores.step] at h
    split_ifs at h
    cases h
    exact ⟨le_rfl, rfl, rfl, rfl⟩
  | startupInterrupt =>
    simp only [Cores.step] at h
    split at h <;> cases h <;> exact ⟨le_rfl, rfl, rfl, rfl⟩
  | eventInterrupt =>
    simp only [Cores.step] at h
    split_ifs at h
    · obtain ⟨applicationEvents, -, h⟩ := Option.bind_eq_some_iff.mp h
      cases h
      exact ⟨le_rfl, rfl, rfl, rfl⟩
    · cases h
      exact ⟨le_rfl, rfl, rfl, rfl⟩
  | kickInterrupt =>
    simp only [Cores.step] at h
    split at h
    · cases h
    · split_ifs at h <;> cases h <;> exact ⟨le_rfl, rfl, rfl, rfl⟩
  | send message => exact absurd rfl (hsend message)
  | messageInterrupt => exact absurd rfl hinterrupt

/-- The messages are as before, or one is sent, or the slave takes the first of the ring. -/
lemma step_messages {a : Action μ} (h : Cores.step a s = some s') :
    (a ≠ .messageInterrupt ∧ KeepsMessages s s') ∨
      (∃ message, a = .send message ∧ s.master = .running ∧
        s' = { s with ring := s.ring ++ [message], sent := s.sent ++ [message] }) ∨
      ∃ message ring, a = .messageInterrupt ∧ s.ring = message :: ring ∧
        s' = { s with ring, taken := s.taken ++ [(message, s.endpointCallback messageSize)] } := by
  cases a with
  | send message =>
    simp only [Cores.step, Cores.sendMessage] at h
    split_ifs at h with hrunning hfree
    · exact Or.inr (Or.inl ⟨message, rfl, hrunning, (Option.some.inj h).symm⟩)
    · cases h
      exact Or.inl ⟨by simp, le_rfl, rfl, rfl, rfl⟩
  | messageInterrupt =>
    simp only [Cores.step] at h
    split at h
    · cases h
    · rename_i message ring hring
      split_ifs at h
      exact Or.inr (Or.inr ⟨message, ring, rfl, hring, (Option.some.inj h).symm⟩)
  | _ => exact Or.inl ⟨by simp, step_keepsMessages h (by simp) (by simp)⟩

/-! ### The invariant -/

/-- Every message that was sent is taken or in the ring, in the order of sending, and there are
messages only when the master's `initialise` has returned. -/
structure Delivery (s : Cores μ) : Prop where
  handshake : ∃ k, Handshake s k
  sent : s.sent = s.taken.map Prod.fst ++ s.ring
  ring : s.ring ≠ [] → MasterPc.running.executed ≤ s.master.executed

namespace Delivery

lemma reset : Delivery (Cores.reset μ) where
  handshake := ⟨0, Handshake.reset⟩
  sent := rfl
  ring := fun h => absurd rfl h

lemma step {a : Action μ} (h : Delivery s) (hstep : Cores.step a s = some s') : Delivery s' := by
  obtain ⟨k, hk⟩ := h.handshake
  have hhandshake := hk.step hstep
  rcases step_messages hstep with ⟨-, hkeeps⟩ | ⟨message, -, hrunning, rfl⟩ |
    ⟨message, ring, -, hring, rfl⟩
  · refine ⟨hhandshake, ?_, ?_⟩
    · rw [hkeeps.sent, hkeeps.ring, hkeeps.taken]
      exact h.sent
    · rw [hkeeps.ring]
      exact fun hne => (h.ring hne).trans hkeeps.master
  · refine ⟨hhandshake, ?_, fun _ => ?_⟩
    · change s.sent ++ [message] = s.taken.map Prod.fst ++ (s.ring ++ [message])
      rw [h.sent, List.append_assoc]
    · exact (congrArg MasterPc.executed hrunning).ge
  · refine ⟨hhandshake, ?_, fun _ => ?_⟩
    · change s.sent = (s.taken ++ [(message, _)]).map Prod.fst ++ ring
      rw [h.sent, hring, List.map_append, List.append_assoc]
      rfl
    · exact h.ring (by rw [hring]; exact List.cons_ne_nil _ _)

/-- A message never arrives without an endpoint; it is handed over if the callback is there. -/
lemma endpointCallback_eq (h : Delivery s) (hring : s.ring ≠ []) :
    s.endpointCallback messageSize = if s.messageCallback then .handed else .released := by
  obtain ⟨k, hk⟩ := h.handshake
  have hmaster : 11 ≤ s.master.executed := h.ring hring
  have hendpoint : s.slaveEndpoint = true := hk.noEventLost.endpoint (by
    exact lt_of_lt_of_le (by decide) hmaster)
  rw [Cores.endpointCallback, if_pos hendpoint]
  simp only [le_refl, true_and]

lemma noMessageLost_iff (h : Delivery s) :
    NoMessageLost s ↔ ∀ t ∈ s.taken, t.2 = .handed := by
  refine ⟨fun hlost => hlost.handed, fun hhanded => ⟨?_, hhanded⟩⟩
  rw [h.sent, Cores.handed, List.filter_eq_self.mpr]
  exact fun t ht => decide_eq_true (hhanded t ht)

/-- A message that is lost stays lost. -/
lemma noMessageLost_of_step {a : Action μ} (h : Delivery s) (hstep : Cores.step a s = some s')
    (hlost : NoMessageLost s') : NoMessageLost s := by
  rw [(h.step hstep).noMessageLost_iff] at hlost
  rw [h.noMessageLost_iff]
  rcases step_messages hstep with ⟨-, hkeeps⟩ | ⟨message, -, -, rfl⟩ | ⟨message, ring, -, -, rfl⟩
  · rwa [hkeeps.taken] at hlost
  · exact hlost
  · exact fun t ht => hlost t (List.mem_append_left _ ht)

/-- A step loses a message exactly when it takes a message interrupt without a callback. -/
lemma noMessageLost_step_iff {a : Action μ} (h : Delivery s) (hstep : Cores.step a s = some s')
    (hlost : NoMessageLost s) : NoMessageLost s' ↔ Registered a s := by
  rw [h.noMessageLost_iff] at hlost
  rw [(h.step hstep).noMessageLost_iff]
  rcases step_messages hstep with ⟨hne, hkeeps⟩ | ⟨message, rfl, -, rfl⟩ |
    ⟨message, ring, rfl, hring, rfl⟩
  · have hregistered : Registered a s := by
      cases a with
      | messageInterrupt => exact absurd rfl hne
      | _ => trivial
    rw [hkeeps.taken]
    exact iff_of_true hlost hregistered
  · exact iff_of_true hlost trivial
  · have hout := h.endpointCallback_eq (by rw [hring]; exact List.cons_ne_nil _ _)
    constructor
    · intro hhanded
      have hlast := hhanded _ (List.mem_append_right _ (List.mem_singleton_self _))
      rw [hout] at hlast
      change s.messageCallback = true
      by_contra hnone
      rw [if_neg hnone] at hlast
      cases hlast
    · intro (hcallback : s.messageCallback = true) t ht
      rcases List.mem_append.mp ht with ht | ht
      · exact hlost t ht
      · rw [List.mem_singleton.mp ht, hout, if_pos hcallback]

end Delivery

/-! ### When no message is lost -/

/-- On every interleaving no message is lost exactly when every message interrupt was taken after
the slave had registered its message callback. -/
theorem noMessageLost_iff_registered {actions : List (Action μ)}
    (hrun : Runs.run Cores.step actions (Cores.reset μ) = some s) :
    NoMessageLost s ↔
      Runs.run (Runs.guarded Registered Cores.step) actions (Cores.reset μ) = some s := by
  have hreset : NoMessageLost (Cores.reset μ) :=
    Delivery.reset.noMessageLost_iff.mpr fun t ht => absurd ht List.not_mem_nil
  exact Runs.iff_run_guarded Delivery.reset hreset (fun a r r' h hstep => h.step hstep)
    (fun a r r' h hstep => h.noMessageLost_of_step hstep)
    (fun a r r' h hstep => h.noMessageLost_step_iff hstep) hrun

/-- The slave's `main` registers its callback, and then the message arrives. -/
theorem noMessageLost_afterRegistration : ∃ s : Cores ℕ,
    Runs.run Cores.step (bootActions ++ [.send 7, .slave, .messageInterrupt]) (Cores.reset ℕ) =
      some s ∧ s.handed = [7] ∧ NoMessageLost s := by
  refine ⟨{ (booted : Cores ℕ) with
    slave := .running, messageCallback := true, sent := [7], taken := [(7, .handed)] },
    rfl, rfl, ?_⟩
  have hrun : Runs.run Cores.step (bootActions ++ [.send 7, .slave, .messageInterrupt])
      (Cores.reset ℕ) = some _ := rfl
  exact (noMessageLost_iff_registered hrun).mpr rfl

/-- The message of the master's `main` arrives before the slave's `main` has registered its
callback, and is released. -/
theorem not_noMessageLost_beforeRegistration : ∃ s : Cores ℕ,
    Runs.run Cores.step (bootActions ++ [.send 7, .messageInterrupt]) (Cores.reset ℕ) = some s ∧
      s.taken = [(7, .released)] ∧ ¬ NoMessageLost s := by
  refine ⟨{ (booted : Cores ℕ) with sent := [7], taken := [(7, .released)] }, rfl, rfl, ?_⟩
  intro hlost
  exact absurd (hlost.handed _ (List.mem_singleton_self _)) (by decide)

end VioFrontend
