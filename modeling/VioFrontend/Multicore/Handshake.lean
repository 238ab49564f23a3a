import VioFrontend.Multicore.Basic

/-!
# The boot handshake

Two events share one cell of the master, and only the link-up wait of the slave is between them.
The invariant counts the statements that each core has executed and the events that have arrived;
it holds in every reachable state, so on every interleaving.
-/

namespace VioFrontend

/-- The number of statements that the master has executed. -/
def MasterPc.executed : MasterPc → ℕ
  | .mcmgrInit => 0
  | .registerEvent => 1
  | .copyImage => 2
  | .startCore => 3
  | .waitForStartup => 4
  | .waitForLinkReady => 5
  | .masterInit => 6
  | .kick => 7
  | .createEndpoint => 8
  | .waitForEndpointReady => 9
  | .registerMessageCallback => 10
  | .running => 11

/-- The number of statements that the slave has executed; one that has timed out has not got past
its startup data. -/
def SlavePc.executed : SlavePc → ℕ
  | .inReset => 0
  | .mcmgrInit => 1
  | .getStartupData | .timedOut => 2
  | .remoteInit => 3
  | .triggerLinkReady => 4
  | .waitForLinkUp => 5
  | .createEndpoint => 6
  | .triggerEndpointReady => 7
  | .registerMessageCallback => 8
  | .running => 9

/-- The events that the slave has triggered. -/
def SlavePc.triggered (pc : SlavePc) : List ℕ :=
  [rpmsgLinkReady, rpmsgEndpointReady].take
    (if 8 ≤ pc.executed then 2 else if 5 ≤ pc.executed then 1 else 0)

variable {μ : Type} {s s' : Cores μ}

/-! ### What a core can do -/

/-- The master waits, or goes on to its next statement. -/
lemma masterStep_cases (h : s.masterStep = some s') :
    s' = s ∨ ∃ pc : MasterPc, pc.executed = s.master.executed + 1 ∧
      (pc.executed = 6 → s.applicationEvents.cell = rpmsgLinkReady) ∧
      (pc.executed = 10 → s.applicationEvents.cell = rpmsgEndpointReady) ∧
      s' = { s with
        master := pc
        slave := if pc.executed = 4 then .mcmgrInit else s.slave
        eventCallback := s.eventCallback || decide (pc.executed = 2)
        rings := s.rings || decide (pc.executed = 7)
        masterEndpoint := s.masterEndpoint || decide (pc.executed = 9)
        kicks := s.kicks + if pc.executed = 8 then 1 else 0 } := by
  cases hpc : s.master <;> simp only [Cores.masterStep, hpc] at h
  case mcmgrInit => exact Or.inr ⟨.registerEvent, by simpa [MasterPc.executed] using h.symm⟩
  case registerEvent => exact Or.inr ⟨.copyImage, by simpa [MasterPc.executed] using h.symm⟩
  case copyImage => exact Or.inr ⟨.startCore, by simpa [MasterPc.executed] using h.symm⟩
  case startCore => exact Or.inr ⟨.waitForStartup, by simpa [MasterPc.executed] using h.symm⟩
  case waitForStartup =>
    split_ifs at h
    · exact Or.inr ⟨.waitForLinkReady, by simpa [MasterPc.executed] using h.symm⟩
    · exact Or.inl (Option.some.inj h).symm
  case waitForLinkReady =>
    split_ifs at h with hcell
    · exact Or.inr ⟨.masterInit, by simpa [MasterPc.executed, hcell] using h.symm⟩
    · exact Or.inl (Option.some.inj h).symm
  case masterInit => exact Or.inr ⟨.kick, by simpa [MasterPc.executed] using h.symm⟩
  case kick => exact Or.inr ⟨.createEndpoint, by simpa [MasterPc.executed] using h.symm⟩
  case createEndpoint =>
    exact Or.inr ⟨.waitForEndpointReady, by simpa [MasterPc.executed] using h.symm⟩
  case waitForEndpointReady =>
    split_ifs at h with hcell
    · exact Or.inr ⟨.registerMessageCallback, by simpa [MasterPc.executed, hcell] using h.symm⟩
    · exact Or.inl (Option.some.inj h).symm
  case registerMessageCallback => exact Or.inr ⟨.running, by simpa [MasterPc.executed] using h.symm⟩
  case running => cases h

/-- The slave waits, times out or asks for its startup data, or goes on to its next statement. -/
lemma slaveStep_cases (h : s.slaveStep = some s') :
    (∃ startupData messageCallback, s' = { s with startupData, messageCallback }) ∨
    ∃ pc : SlavePc, pc.executed = s.slave.executed + 1 ∧ (pc.executed = 6 → s.linkUp = true) ∧
      1 ≤ s.slave.executed ∧
      s' = { s with
        slave := pc
        applicationEvents :=
          if pc.executed = 5 then s.applicationEvents.post rpmsgLinkReady
          else if pc.executed = 8 then s.applicationEvents.post rpmsgEndpointReady
          else s.applicationEvents
        remoteInit := s.remoteInit || decide (pc.executed = 4)
        slaveEndpoint := s.slaveEndpoint || decide (pc.executed = 7)
        messageCallback := s.messageCallback || decide (pc.executed = 9) } := by
  cases hpc : s.slave <;> simp only [Cores.slaveStep, hpc] at h
  case inReset => cases h
  case mcmgrInit => exact Or.inr ⟨.getStartupData, by simpa [SlavePc.executed] using h.symm⟩
  case getStartupData =>
    split at h
    · exact Or.inl ⟨_, _, (Option.some.inj h).symm⟩
    · obtain rfl := Option.some.inj h
      exact Or.inl ⟨s.startupData, s.messageCallback, by rw [← hpc]⟩
    · exact Or.inr ⟨.remoteInit, by simpa [SlavePc.executed] using h.symm⟩
    · exact Or.inr ⟨.remoteInit, by simpa [SlavePc.executed] using h.symm⟩
  case remoteInit => exact Or.inr ⟨.triggerLinkReady, by simpa [SlavePc.executed] using h.symm⟩
  case triggerLinkReady => exact Or.inr ⟨.waitForLinkUp, by simpa [SlavePc.executed] using h.symm⟩
  case waitForLinkUp =>
    split_ifs at h with hlink
    · exact Or.inr ⟨.createEndpoint, by simpa [SlavePc.executed, hlink] using h.symm⟩
    · obtain rfl := Option.some.inj h
      exact Or.inl ⟨s.startupData, s.messageCallback, by rw [← hpc]⟩
  case createEndpoint =>
    exact Or.inr ⟨.triggerEndpointReady, by simpa [SlavePc.executed] using h.symm⟩
  case triggerEndpointReady =>
    exact Or.inr ⟨.registerMessageCallback, by simpa [SlavePc.executed] using h.symm⟩
  case registerMessageCallback => exact Or.inr ⟨.running, by simpa [SlavePc.executed] using h.symm⟩
  case running => cases h
  case timedOut => exact Or.inl ⟨_, _, (Option.some.inj h).symm⟩

/-! ### The invariant -/

/-- The first `k` events that the slave has triggered have arrived at the master. -/
structure Handshake (s : Cores μ) (k : ℕ) : Prop where
  started : 1 ≤ s.slave.executed → 4 ≤ s.master.executed
  eventCallback : s.eventCallback = true ↔ 2 ≤ s.master.executed
  events : s.applicationEvents.Delivered 0 s.slave.triggered k
  remoteInit : s.remoteInit = true ↔ 4 ≤ s.slave.executed
  rings : s.rings = true ↔ 7 ≤ s.master.executed
  linkReady : 6 ≤ s.master.executed → 1 ≤ k
  endpointReady : 10 ≤ s.master.executed → k = 2
  kicks : s.kicks + s.linkUp.toNat = if 8 ≤ s.master.executed then 1 else 0
  linkUp : 6 ≤ s.slave.executed → s.linkUp = true
  slaveEndpoint : s.slaveEndpoint = true ↔ 7 ≤ s.slave.executed

namespace Handshake

variable {k : ℕ}

lemma reset : Handshake (Cores.reset μ) 0 := by
  constructor <;> simp [Cores.reset, MasterPc.executed, SlavePc.executed]
  exact Mailbox.Delivered.empty 0

/-- As many events have arrived as the cell says, and no more than are triggered. -/
lemma cell_eq (h : Handshake s k) :
    s.applicationEvents.cell = k ∧ k ≤ 2 ∧ (1 ≤ k → 5 ≤ s.slave.executed) ∧
      (k = 2 → 8 ≤ s.slave.executed) := by
  obtain ⟨hle, hcell, -⟩ := h.events
  rw [SlavePc.triggered] at hle hcell
  rw [List.length_take] at hle
  have hk : k ≤ 2 := hle.trans (min_le_right _ _)
  rw [← List.take_succ_cons, List.getElem?_take_of_lt (by omega)] at hcell
  have hcount := hle.trans (min_le_left _ _)
  refine ⟨?_, hk, ?_, ?_⟩
  · interval_cases k <;> exact Option.some.inj hcell
  · intro hone
    split_ifs at hcount <;> omega
  · intro htwo
    split_ifs at hcount <;> omega

lemma masterStep (h : Handshake s k) (hstep : s.masterStep = some s') : Handshake s' k := by
  obtain ⟨hcell, -⟩ := h.cell_eq
  rcases masterStep_cases hstep with rfl | ⟨pc, hpc, hlinkReady, hendpointReady, rfl⟩
  · exact h
  · obtain ⟨hstarted, hcallback, hevents, hremote, hrings, hone, htwo, hkicks, hlinkUp,
      hendpoint⟩ := h
    -- the slave that is started has executed nothing, so it counts as in reset
    have hslave : ∀ n, 2 ≤ n →
        (n ≤ (if pc.executed = 4 then SlavePc.mcmgrInit else s.slave).executed ↔
          n ≤ s.slave.executed) := by
      intro n hn
      split_ifs with hfour
      · have hmcmgr : SlavePc.mcmgrInit.executed = 1 := rfl
        omega
      · rfl
    have htriggered : (if pc.executed = 4 then SlavePc.mcmgrInit else s.slave).triggered
        = s.slave.triggered := by
      simp only [SlavePc.triggered, hslave 8 (by omega), hslave 5 (by omega)]
    constructor <;> simp only [Bool.or_eq_true, decide_eq_true_eq, hslave 4 (by omega),
      hslave 6 (by omega), hslave 7 (by omega), htriggered]
    · split_ifs <;> omega
    · rw [hcallback]
      omega
    · exact hevents
    · exact hremote
    · rw [hrings]
      omega
    · intro hsix
      rcases Nat.eq_or_lt_of_le hsix with heq | hlt
      · have hread := hlinkReady heq.symm
        simp only [rpmsgLinkReady] at hread
        omega
      · exact hone (by omega)
    · intro hten
      rcases Nat.eq_or_lt_of_le hten with heq | hlt
      · have hread := hendpointReady heq.symm
        simp only [rpmsgEndpointReady] at hread
        omega
      · exact htwo (by omega)
    · split_ifs at hkicks ⊢ <;> omega
    · exact hlinkUp
    · exact hendpoint

lemma slaveStep (h : Handshake s k) (hstep : s.slaveStep = some s') : Handshake s' k := by
  rcases slaveStep_cases hstep with ⟨startupData, messageCallback, rfl⟩ |
    ⟨pc, hpc, hlinkUp, hstarted, rfl⟩
  · exact { h with }
  · have hevents : Mailbox.Delivered 0 pc.triggered k
        (if pc.executed = 5 then s.applicationEvents.post rpmsgLinkReady
          else if pc.executed = 8 then s.applicationEvents.post rpmsgEndpointReady
          else s.applicationEvents) := by
      have hbefore := h.events
      rw [SlavePc.triggered] at hbefore ⊢
      by_cases h5 : pc.executed = 5
      · have h4 : s.slave.executed = 4 := by omega
        rw [h4] at hbefore
        simp only [h5, if_true]
        exact hbefore.post rpmsgLinkReady
      · by_cases h8 : pc.executed = 8
        · have h7 : s.slave.executed = 7 := by omega
          rw [h7] at hbefore
          simp only [h8, if_true, Nat.reduceEqDiff, if_false]
          exact hbefore.post rpmsgEndpointReady
        · have hiff8 : 8 ≤ pc.executed ↔ 8 ≤ s.slave.executed := by omega
          have hiff5 : 5 ≤ pc.executed ↔ 5 ≤ s.slave.executed := by omega
          simp only [hiff8, hiff5, h5, h8, if_false]
          exact hbefore
    obtain ⟨hstarted', hcallback, -, hremote, hrings, hone, htwo, hkicks, hlinkUp', hendpoint⟩ := h
    refine ⟨fun _ => hstarted' hstarted, hcallback, hevents, ?_, hrings, hone, htwo, hkicks, ?_, ?_⟩
    · simp only [Bool.or_eq_true, decide_eq_true_eq]
      rw [hremote]
      omega
    · intro (hsix : 6 ≤ pc.executed)
      rcases Nat.eq_or_lt_of_le hsix with heq | hlt
      · exact hlinkUp heq.symm
      · exact hlinkUp' (by omega)
    · simp only [Bool.or_eq_true, decide_eq_true_eq]
      rw [hendpoint]
      omega

/-- An event that arrives is written into the cell, since the handler is registered. -/
lemma eventInterrupt (h : Handshake s k) (hstep : Cores.step .eventInterrupt s = some s') :
    ∃ k', Handshake s' k' := by
  simp only [Cores.step] at hstep
  cases hcallback : s.eventCallback with
  | true =>
    rw [if_pos hcallback] at hstep
    obtain ⟨applicationEvents, hdeliver, hstep⟩ := Option.bind_eq_some_iff.mp hstep
    obtain rfl := Option.some.inj hstep
    have hevents := h.events.deliver hdeliver
    have htwo : k + 1 ≤ 2 := by
      have hle := hevents.le_length
      rw [SlavePc.triggered, List.length_take] at hle
      exact hle.trans (min_le_right _ _)
    refine ⟨k + 1, { h with events := hevents, linkReady := ?_, endpointReady := ?_ }⟩
    · exact fun _ => Nat.succ_pos k
    · intro hten
      rw [h.endpointReady hten] at htwo
      exact absurd htwo (by decide)
  | false =>
    rw [if_neg (by simp [hcallback])] at hstep
    obtain rfl := Option.some.inj hstep
    have hnone : ¬ 2 ≤ s.master.executed := by
      rw [← h.eventCallback, hcallback]
      exact Bool.false_ne_true
    have hreset : ¬ 1 ≤ s.slave.executed := fun hstarted => hnone (by
      have := h.started hstarted
      omega)
    have htriggered : s.slave.triggered = [] := by
      rw [SlavePc.triggered, if_neg (by omega), if_neg (by omega), List.take_zero]
    obtain ⟨hle, hcell, hinFlight⟩ := h.events
    have hempty : s.applicationEvents.inFlight = [] := by
      rw [hinFlight, htriggered, List.drop_nil]
    refine ⟨k, { h with events := ⟨hle, hcell, ?_⟩ }⟩
    rw [hempty, List.tail_nil, ← hempty, hinFlight]

/-- No kick is lost, since the slave has triggered its event only after its remote init. -/
lemma kickInterrupt (h : Handshake s k) (hstep : Cores.step .kickInterrupt s = some s') :
    Handshake s' k := by
  obtain ⟨-, -, hfive, -⟩ := h.cell_eq
  have hkicks := h.kicks
  simp only [Cores.step] at hstep
  split at hstep
  · cases hstep
  · rename_i kicks hpending
    rw [hpending] at hkicks
    have height : 8 ≤ s.master.executed := by
      by_contra hlt
      rw [if_neg hlt] at hkicks
      omega
    rw [if_pos height] at hkicks
    have hremote : s.remoteInit = true :=
      h.remoteInit.mpr ((hfive (h.linkReady (by omega))).trans' (by decide))
    rw [if_pos hremote] at hstep
    obtain rfl := Option.some.inj hstep
    refine { h with kicks := ?_, linkUp := fun _ => rfl }
    simp only [if_pos height, Bool.toNat_true]
    omega

/-- Every action keeps the invariant. -/
lemma step {a : Action μ} (h : Handshake s k) (hstep : Cores.step a s = some s') :
    ∃ k', Handshake s' k' := by
  cases a with
  | master => exact ⟨k, h.masterStep hstep⟩
  | slave => exact ⟨k, h.slaveStep hstep⟩
  | timeout =>
    simp only [Cores.step] at hstep
    split_ifs at hstep with hpc
    obtain rfl := Option.some.inj hstep
    -- the slave has executed as much as before
    obtain ⟨hstarted, hcallback, hevents, hremote, hrings, hone, htwo, hkicks, hlinkUp,
      hendpoint⟩ := h
    rw [hpc] at hstarted hevents hremote hlinkUp hendpoint
    exact ⟨k, hstarted, hcallback, hevents, hremote, hrings, hone, htwo, hkicks, hlinkUp, hendpoint⟩
  | startupInterrupt =>
    simp only [Cores.step] at hstep
    split at hstep <;> cases hstep <;> exact ⟨k, { h with }⟩
  | eventInterrupt => exact h.eventInterrupt hstep
  | kickInterrupt => exact ⟨k, h.kickInterrupt hstep⟩
  | send message =>
    simp only [Cores.step, Cores.sendMessage] at hstep
    split_ifs at hstep <;> cases hstep <;> exact ⟨k, { h with }⟩
  | messageInterrupt =>
    simp only [Cores.step] at hstep
    split at hstep
    · cases hstep
    · split_ifs at hstep
      cases hstep
      exact ⟨k, { h with }⟩

/-- The slave is at most at its wait for the link until the master has kicked it. -/
lemma slave_le (h : Handshake s k) (hmaster : s.master.executed < 8) : s.slave.executed ≤ 5 := by
  have hkicks := h.kicks
  rw [if_neg (not_le.mpr hmaster)] at hkicks
  by_contra hlt
  rw [h.linkUp (not_le.mp hlt), Bool.toNat_true] at hkicks
  exact Nat.succ_ne_zero _ hkicks

/-- The values that the cell still holds or will hold. -/
lemma cell_cons_inFlight (h : Handshake s k) :
    s.applicationEvents.cell :: s.applicationEvents.inFlight = k :: s.slave.triggered.drop k := by
  rw [h.cell_eq.1, h.events.inFlight]

/-- The invariant holds in every reachable state. -/
lemma run {actions : List (Action μ)}
    (hrun : Runs.run Cores.step actions (Cores.reset μ) = some s) : ∃ k, Handshake s k :=
  Runs.run_invariant (P := fun s => ∃ k, Handshake s k) ⟨0, Handshake.reset⟩
    (fun _ _ _ ⟨_, h⟩ hstep => h.step hstep) hrun

end Handshake

/-! ### No event is lost -/

/-- What the handshake guarantees: no event is overwritten before the wait for it has seen it, and
a core is told that the other is ready only when it is. -/
structure NoEventLost (s : Cores μ) : Prop where
  /-- The first wait of the master has seen its event when the second one is triggered. -/
  observed : SlavePc.triggerEndpointReady.executed < s.slave.executed →
    MasterPc.waitForLinkReady.executed < s.master.executed
  /-- Until the first wait of the master is over, its cell is not overwritten. -/
  endpointReady_after : s.master.executed ≤ MasterPc.waitForLinkReady.executed →
    rpmsgEndpointReady ∉ s.applicationEvents.cell :: s.applicationEvents.inFlight
  linkReady : s.master.executed ≤ MasterPc.waitForLinkReady.executed →
    SlavePc.triggerLinkReady.executed < s.slave.executed →
    rpmsgLinkReady ∈ s.applicationEvents.cell :: s.applicationEvents.inFlight
  endpointReady : SlavePc.triggerEndpointReady.executed < s.slave.executed →
    rpmsgEndpointReady ∈ s.applicationEvents.cell :: s.applicationEvents.inFlight
  /-- A kick is under way until the link is up. -/
  linkUp : MasterPc.kick.executed < s.master.executed → s.linkUp = true ∨ 0 < s.kicks
  rings : s.rings = true → s.remoteInit = true
  endpoint : MasterPc.waitForEndpointReady.executed < s.master.executed → s.slaveEndpoint = true

lemma Handshake.noEventLost {k : ℕ} (h : Handshake s k) : NoEventLost s := by
  obtain ⟨-, hk, hfive, height⟩ := h.cell_eq
  constructor
  case observed =>
    intro (hslave : 7 < s.slave.executed)
    have hmaster : ¬ s.master.executed < 8 := fun hlt => absurd (h.slave_le hlt) (by omega)
    exact lt_of_lt_of_le (by decide) (not_lt.mp hmaster)
  case endpointReady_after =>
    intro (hmaster : s.master.executed ≤ 5)
    rw [h.cell_cons_inFlight]
    have hslave : s.slave.executed ≤ 5 := h.slave_le (by omega)
    rintro (_ | ⟨_, hmem⟩)
    · exact absurd (height rfl) (by omega)
    · rw [SlavePc.triggered, if_neg (by omega)] at hmem
      split_ifs at hmem
      · exact absurd (List.mem_of_mem_drop hmem) (by decide)
      · exact absurd (List.mem_of_mem_drop hmem) (by decide)
  case linkReady =>
    intro (hmaster : s.master.executed ≤ 5) (hslave : 4 < s.slave.executed)
    rw [h.cell_cons_inFlight]
    have hslave' : s.slave.executed ≤ 5 := h.slave_le (by omega)
    have htriggered : s.slave.triggered = [rpmsgLinkReady] := by
      rw [SlavePc.triggered, if_neg (by omega), if_pos (by omega)]
      rfl
    rw [htriggered]
    have hone : k ≠ 2 := fun htwo => absurd (height htwo) (by omega)
    interval_cases k <;> first | decide | exact absurd rfl hone
  case endpointReady =>
    intro (hslave : 7 < s.slave.executed)
    rw [h.cell_cons_inFlight]
    have htriggered : s.slave.triggered = [rpmsgLinkReady, rpmsgEndpointReady] := by
      rw [SlavePc.triggered, if_pos (by omega)]
      rfl
    rw [htriggered]
    interval_cases k <;> decide
  case linkUp =>
    intro (hmaster : 7 < s.master.executed)
    have hkicks := h.kicks
    rw [if_pos (by omega)] at hkicks
    cases hlink : s.linkUp with
    | true => exact Or.inl rfl
    | false =>
      rw [hlink, Bool.toNat_false] at hkicks
      exact Or.inr (by omega)
  case rings =>
    intro hrings
    have hseven := h.rings.mp hrings
    have hsix : 5 ≤ s.slave.executed := hfive (h.linkReady (by omega))
    exact h.remoteInit.mpr (by omega)
  case endpoint =>
    intro (hmaster : 9 < s.master.executed)
    have hready := height (h.endpointReady (by omega))
    exact h.slaveEndpoint.mpr (by omega)

/-- The boot handshake loses no event on any interleaving of the two cores. -/
theorem noEventLost_of_run {actions : List (Action μ)}
    (hrun : Runs.run Cores.step actions (Cores.reset μ) = some s) : NoEventLost s := by
  obtain ⟨k, h⟩ := Handshake.run hrun
  exact h.noEventLost

/-- An interleaving after which `initialise` has returned on both cores, and the master has
registered its message callback. -/
def bootActions : List (Action μ) :=
  [.master, .master, .master, .master, .slave, .slave, .startupInterrupt, .startupInterrupt,
    .master, .slave, .slave, .slave, .eventInterrupt, .master, .master, .master, .kickInterrupt,
    .slave, .slave, .slave, .master, .eventInterrupt, .master, .master]

/-- The state after it. -/
def booted : Cores μ where
  master := .running
  slave := .registerMessageCallback
  startupData := .confirmed
  eventCallback := true
  applicationEvents := ⟨rpmsgEndpointReady, []⟩
  rings := true
  masterEndpoint := true
  remoteInit := true
  kicks := 0
  linkUp := true
  slaveEndpoint := true
  messageCallback := false
  ring := []
  sent := []
  taken := []

lemma run_bootActions : Runs.run Cores.step bootActions (Cores.reset μ) = some booted := rfl

theorem noEventLost_booted : NoEventLost (booted : Cores ℕ) := noEventLost_of_run run_bootActions

end VioFrontend
