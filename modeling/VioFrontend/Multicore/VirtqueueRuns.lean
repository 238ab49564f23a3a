import VioFrontend.Multicore.SharedMemory
import VioFrontend.Multicore.VirtqueueSteps
import VioFrontend.Library.Runs

/-!
# Runs of a channel

On the vrings that the master has set up, the packets arrive in the order of their sends, each
once and as it was sent, whatever the interleaving of the two cores. A send is refused exactly while
all buffers are on their way, and the interrupt handler leaves no packet behind.
-/

namespace VioFrontend

open Runs

/-- The vring that a core sends on. -/
def Role.txVring : Role → Vring × Vring → Vring
  | .master, vrings => vrings.2
  | .remote, vrings => vrings.1

lemma rpmsgLiteMasterInit_filled {k addr length : ℕ} {vrings : Vring × Vring} (hk : k < 16)
    (hover : rlVringOverhead ≤ length) (hend : addr + length < 2 ^ 32)
    (hinit : rpmsgLiteMasterInit (2 ^ k) addr length = some vrings) (role : Role) :
    (role.txVring vrings).Filled k role := by
  have hfit : addr ≠ 0 ∧ rlVringOverhead + 2 * 2 ^ k * rlBufferSize ≤ length := by
    by_contra hfit
    rw [rpmsgLiteMasterInit_eq_none hover hend hfit] at hinit
    cases hinit
  obtain ⟨rvq, tvq, hinit', hrvq, htvq, -⟩ := rpmsgLiteMasterInit_eq hk hover hend hfit
  obtain rfl := Option.some.inj (hinit'.symm.trans hinit)
  cases role with
  | master => exact htvq
  | remote => exact hrvq

/-- The packet that the sender has not entered into its ring yet. -/
def SenderPc.packet? : SenderPc → Option Packet
  | .idle | .kick => none
  | .txAlloc packet | .getIdx packet | .writeHdr packet _ _ | .writeData packet _ _ _
  | .updateSlot packet _ | .updateIdx packet => some packet

/-- How many accesses the handler makes at most before it has returned the buffer it is at. -/
def ReceiverPc.rank : ReceiverPc → ℕ
  | .idle => 0
  | .rx => rlBufferPayloadSize + 6
  | .getIdx => rlBufferPayloadSize + 5
  | .readHdr .. => rlBufferPayloadSize + 4
  | .readData _ _ hdr data => hdr.len - data.length + 3
  | .updateSlot .. => 2
  | .updateIdx => 1

namespace Channel

/-- The packet of a call of `rpmsg_lite_send`. -/
def Event.packet? : Event → Option Packet
  | .send packet => some packet
  | _ => none

/-- A whole call of `rpmsg_lite_send` that finds a free buffer. -/
def sendCall (packet : Packet) : List Event :=
  .send packet :: List.replicate (packet.data.length + 7) .sender

variable {k : ℕ} {role : Role} {s s' : Channel} {events : List Event}

lemma Inv.run (h : s.Inv k role) (hk : k < 16)
    (hrun : Runs.run (Channel.step (2 ^ k) role) events s = some s') : s'.Inv k role :=
  run_invariant h (fun _ _ _ h hstep => h.step hk hstep) hrun

/-! ### In order, once and whole -/

/-- Only the packets of the calls are accepted, in the order of the calls. -/
lemma step_sublist {n : ℕ} {event : Event} {sent : List Packet}
    (h : (s.accepted ++ s.sender.packet?.toList).Sublist sent)
    (hstep : step n role event s = some s') :
    (s'.accepted ++ s'.sender.packet?.toList).Sublist (sent ++ event.packet?.toList) := by
  cases event with
  | send packet =>
    simp only [step] at hstep
    split_ifs at hstep with hidle hlen <;> obtain rfl := Option.some.inj hstep
    · exact h.trans (List.sublist_append_left ..)
    · exact ((List.sublist_append_left ..).trans h).append (List.Sublist.refl [packet])
  | interrupt =>
    simp only [step] at hstep
    split_ifs at hstep
    obtain rfl := Option.some.inj hstep
    exact h.trans (List.sublist_append_left ..)
  | receiver =>
    obtain ⟨hsender, haccepted, -⟩ := receiverStep_frame hstep
    rw [hsender, haccepted]
    exact h.trans (List.sublist_append_left ..)
  | sender =>
    refine List.Sublist.trans ?_ (h.trans (List.sublist_append_left ..))
    rcases s with ⟨vring, hdr, memory, senderIdx, receiverIdx, sender, _⟩
    cases sender with
    | idle => simp only [step, senderStep, reduceCtorEq] at hstep
    | txAlloc packet =>
      simp only [step, senderStep] at hstep
      split_ifs at hstep <;> obtain rfl := Option.some.inj hstep
      · exact (List.Sublist.refl _).append (List.nil_sublist _)
      · exact List.Sublist.refl _
    | writeData packet idx buffer i =>
      simp only [step, senderStep] at hstep
      split at hstep <;> obtain rfl := Option.some.inj hstep <;> exact List.Sublist.refl _
    | getIdx packet | writeHdr packet idx buffer | updateSlot packet idx | kick =>
      obtain rfl := Option.some.inj hstep
      exact List.Sublist.refl _
    | updateIdx packet =>
      obtain rfl := Option.some.inj hstep
      dsimp only [SenderPc.packet?]
      rw [Option.toList_none, List.append_nil]
      exact List.Sublist.refl _

lemma run_sublist {n : ℕ} {sent : List Packet}
    (h : (s.accepted ++ s.sender.packet?.toList).Sublist sent)
    (hrun : run (step n role) events s = some s') :
    (s'.accepted ++ s'.sender.packet?.toList).Sublist (sent ++ events.filterMap Event.packet?) := by
  induction events generalizing s sent with
  | nil =>
    obtain rfl := Option.some.inj hrun
    rwa [List.filterMap_nil, List.append_nil]
  | cons event events ih =>
    rw [run_cons] at hrun
    obtain ⟨r, hr, hrun⟩ := Option.bind_eq_some_iff.mp hrun
    have hsub := ih (step_sublist h hr) hrun
    rw [List.append_assoc] at hsub
    cases hpacket : event.packet? with
    | none =>
      rw [hpacket] at hsub
      rwa [List.filterMap_cons_none hpacket]
    | some packet =>
      rw [hpacket] at hsub
      rwa [List.filterMap_cons_some hpacket]

section Run

variable {addr length : ℕ} {vrings : Vring × Vring} {hdr : ℕ → RpmsgStdHdr}
  {memory : ℕ → UInt8}

lemma inv_of_run (hk : k < 16) (hover : rlVringOverhead ≤ length)
    (hend : addr + length < 2 ^ 32)
    (hinit : rpmsgLiteMasterInit (2 ^ k) addr length = some vrings)
    (hrun : run (step (2 ^ k) role) events (start (role.txVring vrings) hdr memory) = some s) :
    s.Inv k role :=
  (Inv.start (rpmsgLiteMasterInit_filled hk hover hend hinit role) hdr memory).run hk hrun

/-- In every interleaving of the two cores, the packets that the receiver has read are the first
ones that the sender has entered into its ring, in this order and as they were sent, and these are
packets of its calls, in their order. At most the packets of all buffers are on their way. -/
theorem received_of_run (hk : k ≤ 5) (hover : rlVringOverhead ≤ length)
    (hend : addr + length < 2 ^ 32)
    (hinit : rpmsgLiteMasterInit (2 ^ k) addr length = some vrings)
    (hrun : run (step (2 ^ k) role) events (start (role.txVring vrings) hdr memory) = some s) :
    s.received <+: s.accepted ∧ s.accepted.Sublist (events.filterMap Event.packet?) ∧
      s.accepted.length ≤ s.received.length + 2 ^ k := by
  obtain ⟨hrings, hbuffers, -, -, -⟩ :=
    inv_of_run (Nat.lt_of_le_of_lt hk (by decide)) hover hend hinit hrun
  have hstart : ((start (role.txVring vrings) hdr memory).accepted ++
      (start (role.txVring vrings) hdr memory).sender.packet?.toList).Sublist [] :=
    List.Sublist.refl []
  have hsub := run_sublist hstart hrun
  have hcalled := s.receiver.called_le
  have hreceiver := hrings.receiver_le
  have hsender := hrings.sender_le
  refine ⟨?_, (List.sublist_append_left ..).trans hsub, ?_⟩
  · rw [hbuffers.received]
    exact List.take_prefix ..
  · rw [hbuffers.received, List.length_take, min_eq_left (by omega)]
    omega

/-- Two packets of the master, and a third one that goes into the buffer of the first. -/
def threeSends : List Event :=
  sendCall ⟨40, 30, [1]⟩ ++ sendCall ⟨40, 30, [2]⟩ ++ .interrupt :: List.replicate 15 .receiver ++
    sendCall ⟨40, 30, [3]⟩ ++ .interrupt :: List.replicate 8 .receiver

/-- The memory is that of the linker scripts. -/
theorem received_of_run_threeSends :
    ∃ vrings s, rpmsgLiteMasterInit (2 ^ 1) 0x20340000 0x2000 = some vrings ∧
      run (step (2 ^ 1) .master) threeSends
        (start (Role.master.txVring vrings) (fun _ => ⟨0, 0, 0⟩) fun _ => 0) = some s ∧
      s.received = [⟨40, 30, [1]⟩, ⟨40, 30, [2]⟩, ⟨40, 30, [3]⟩] ∧ s.received <+: s.accepted ∧
      s.accepted.Sublist (threeSends.filterMap Event.packet?) ∧
      s.accepted.length ≤ s.received.length + 2 ^ 1 := by
  refine ⟨_, _, rfl, rfl, rfl, ?_⟩
  exact @received_of_run 1 .master _ threeSends 0x20340000 0x2000 _ (fun _ => ⟨0, 0, 0⟩)
    (fun _ => 0) (by decide) (by decide) (by decide) rfl rfl

/-- A send that finds the rings in its first access is refused exactly if all buffers are with
packets that the receiver has not returned; the channel is as it was before the call. -/
theorem senderStep_refused_iff (hk : k ≤ 5) (hover : rlVringOverhead ≤ length)
    (hend : addr + length < 2 ^ 32)
    (hinit : rpmsgLiteMasterInit (2 ^ k) addr length = some vrings)
    (hrun : run (step (2 ^ k) role) events (start (role.txVring vrings) hdr memory) = some s)
    {packet : Packet} (hpc : s.sender = .txAlloc packet) :
    s.senderStep (2 ^ k) role = some { s with sender := .idle } ↔
      s.accepted.length = s.returned + 2 ^ k := by
  have hk : k < 16 := Nat.lt_of_le_of_lt hk (by decide)
  have hrings := (inv_of_run hk hover hend hinit hrun).rings
  rcases s with ⟨vring, hdr, memory, senderIdx, receiverIdx, sender, receiver, _⟩
  obtain rfl : sender = .txAlloc packet := hpc
  have hempty := hrings.senderIdx_eq_iff hk
  dsimp only [SenderPc.holding] at hempty
  rw [Nat.add_zero, Nat.add_comm (2 ^ k)] at hempty
  rw [← hempty, senderStep]
  split_ifs with hidx
  · exact iff_of_true rfl hidx
  · exact iff_of_false (by simp) hidx

/-- With two packets on their way the third one is refused. -/
theorem senderStep_refused_iff_third :
    ∃ vrings s, rpmsgLiteMasterInit (2 ^ 1) 0x20340000 0x2000 = some vrings ∧
      run (step (2 ^ 1) .master)
        (sendCall ⟨40, 30, []⟩ ++ sendCall ⟨40, 30, []⟩ ++ [.send ⟨40, 30, []⟩])
        (start (Role.master.txVring vrings) (fun _ => ⟨0, 0, 0⟩) fun _ => 0) = some s ∧
      s.senderStep (2 ^ 1) .master = some { s with sender := .idle } := by
  refine ⟨_, _, rfl, rfl, ?_⟩
  exact (@senderStep_refused_iff 1 .master _
    (sendCall ⟨40, 30, []⟩ ++ sendCall ⟨40, 30, []⟩ ++ [.send ⟨40, 30, []⟩])
    0x20340000 0x2000 _ (fun _ => ⟨0, 0, 0⟩) (fun _ => 0) (by decide) (by decide) (by decide)
    rfl rfl ⟨40, 30, []⟩ rfl).mpr rfl

end Run

/-! ### The interrupt handler -/

/-- The events of the core that receives. -/
def Event.isHandler : Event → Bool
  | .interrupt | .receiver => true
  | .send _ | .sender => false

/-- A bound for the steps of the handler while the sender does nothing. -/
def work (s : Channel) : ℕ :=
  (rlBufferPayloadSize + 6) * (s.accepted.length - s.returned) + s.receiver.rank +
    if s.notified then rlBufferPayloadSize + 7 else 0

lemma ReceiverAt.hdr_len_le (h : s.ReceiverAt k role) (hbuffers : s.BuffersInv k)
    (hrings : s.RingsInv k role) {idx buffer : ℕ} (hpc : s.receiver = .readHdr idx buffer) :
    (s.hdr buffer).len ≤ rlBufferPayloadSize := by
  have hreceiver := hrings.receiver_le
  simp only [ReceiverAt, hpc] at h
  simp only [hpc, ReceiverPc.holding] at hreceiver
  obtain ⟨rfl, rfl⟩ := h
  have hstored := hbuffers.stored s.returned _ le_rfl (List.getElem?_eq_getElem hreceiver)
  rw [hstored.1]
  exact hbuffers.fits _ (List.getElem_mem hreceiver)

lemma Inv.work_receiverStep {n : ℕ} (h : s.Inv k role)
    (hstep : s.receiverStep n role = some s') : s'.work < s.work := by
  have hlen : ∀ idx buffer, s.receiver = .readHdr idx buffer →
      (s.hdr buffer).len ≤ rlBufferPayloadSize :=
    fun _ _ hpc => h.receiverAt.hdr_len_le h.buffers h.rings hpc
  have hreceiver := h.rings.receiver_le
  rcases s with ⟨vring, hdr, memory, senderIdx, receiverIdx, sender, receiver, notified, accepted,
    received, returned⟩
  cases receiver with
  | idle => simp only [Channel.receiverStep, reduceCtorEq] at hstep
  | rx =>
    simp only [Channel.receiverStep] at hstep
    split_ifs at hstep <;> obtain rfl := Option.some.inj hstep <;>
      simp only [work, ReceiverPc.rank] <;> omega
  | getIdx | updateSlot idx =>
    obtain rfl := Option.some.inj hstep
    simp only [work, ReceiverPc.rank]
    omega
  | readHdr idx buffer =>
    obtain rfl := Option.some.inj hstep
    have hle := hlen idx buffer rfl
    simp only [work, ReceiverPc.rank, List.length_nil]
    dsimp only at hle
    omega
  | readData idx buffer hdr data =>
    simp only [Channel.receiverStep] at hstep
    split_ifs at hstep <;> obtain rfl := Option.some.inj hstep <;>
      simp only [work, ReceiverPc.rank, List.length_append, List.length_singleton] <;> omega
  | updateIdx =>
    obtain rfl := Option.some.inj hstep
    dsimp only [ReceiverPc.holding] at hreceiver
    obtain ⟨m, hm⟩ : ∃ m, accepted.length - returned = m + 1 :=
      ⟨accepted.length - returned - 1, by omega⟩
    have hm' : accepted.length - (returned + 1) = m := by omega
    simp only [work, ReceiverPc.rank, hm, hm', Nat.mul_succ]
    omega

/-- The handler, left alone, is done after a bounded number of steps. -/
lemma Inv.work_step (h : s.Inv k role) {event : Event} (hevent : event.isHandler = true)
    (hstep : Channel.step (2 ^ k) role event s = some s') : s'.work < s.work := by
  cases event with
  | send packet | sender => cases hevent
  | receiver => exact h.work_receiverStep hstep
  | interrupt =>
    simp only [Channel.step] at hstep
    split_ifs at hstep with hidle
    obtain rfl := Option.some.inj hstep
    simp only [work, hidle.1, hidle.2, ReceiverPc.rank, if_true, Bool.false_eq_true, if_false]
    omega

lemma Inv.work_le (h : s.Inv k role) :
    s.work ≤ (rlBufferPayloadSize + 6) * (2 ^ k + 2) + 1 := by
  have hrank : s.receiver.rank ≤ rlBufferPayloadSize + 6 := by
    have hat := h.receiverAt
    cases hpc : s.receiver <;> simp only [ReceiverPc.rank] <;> try omega
    case readData idx buffer hdr data =>
      simp only [ReceiverAt, hpc] at hat
      obtain ⟨-, packet, hlookup, rfl, -⟩ := hat
      have hfits := h.buffers.fits packet (List.mem_of_getElem? hlookup)
      rw [Packet.hdr]
      dsimp only
      omega
  have hmul : (rlBufferPayloadSize + 6) * (s.accepted.length - s.returned)
      ≤ (rlBufferPayloadSize + 6) * 2 ^ k := by
    have hsender := h.rings.sender_le
    have hpos := Nat.two_pow_pos k
    exact Nat.mul_le_mul_left _ (by omega)
  rw [work, Nat.mul_add]
  split_ifs <;> omega

/-- A step of the handler leaves what the sender has. -/
lemma handler_frame {n : ℕ} {event : Event} (hevent : event.isHandler = true)
    (hstep : step n role event s = some s') :
    s'.sender = s.sender ∧ s'.accepted = s.accepted := by
  cases event with
  | send packet | sender => cases hevent
  | receiver =>
    obtain ⟨hsender, haccepted, -⟩ := receiverStep_frame hstep
    exact ⟨hsender, haccepted⟩
  | interrupt =>
    simp only [step] at hstep
    split_ifs at hstep
    obtain rfl := Option.some.inj hstep
    exact ⟨rfl, rfl⟩

/-- Only a receiver that is outside its handler, without a notification, has nothing to do. -/
lemma idle_of_stuck {n : ℕ} (hstuck : ∀ event : Event, event.isHandler = true →
    step n role event s = none) : s.receiver = .idle ∧ s.notified = false := by
  have hreceiver := hstuck .receiver rfl
  have hinterrupt := hstuck .interrupt rfl
  have hidle : s.receiver = .idle := by
    rcases s with ⟨vring, hdr, memory, senderIdx, receiverIdx, sender, receiver, _⟩
    cases receiver with
    | idle => rfl
    | rx | readData idx buffer hdr data =>
      simp only [step, receiverStep] at hreceiver
      split_ifs at hreceiver
    | getIdx | readHdr idx buffer | updateSlot idx | updateIdx => cases hreceiver
  simp only [step, hidle, true_and] at hinterrupt
  split_ifs at hinterrupt with hnotified
  exact ⟨hidle, Bool.eq_false_of_not_eq_true hnotified⟩

/-- No wake-up is lost: when the handler has run as far as it can while the sender does nothing,
and the sender was not just before its kick, every accepted packet has been received and its buffer
returned. It gets there within a number of steps that depends only on the number of buffers. -/
theorem drained_of_run {addr length : ℕ} {vrings : Vring × Vring} {hdr : ℕ → RpmsgStdHdr}
    {memory : ℕ → UInt8} {handler : List Event} (hk : k ≤ 5) (hover : rlVringOverhead ≤ length)
    (hend : addr + length < 2 ^ 32)
    (hinit : rpmsgLiteMasterInit (2 ^ k) addr length = some vrings)
    (hrun : run (step (2 ^ k) role) events (start (role.txVring vrings) hdr memory) = some s)
    (hkick : s.sender ≠ .kick) (hhandler : ∀ event ∈ handler, event.isHandler = true)
    (hrun' : run (step (2 ^ k) role) handler s = some s') :
    handler.length ≤ (rlBufferPayloadSize + 6) * (2 ^ k + 2) + 1 ∧
      s'.accepted = s.accepted ∧
      ((∀ event : Event, event.isHandler = true → step (2 ^ k) role event s' = none) →
        s'.received = s.accepted ∧ s'.returned = s.accepted.length) := by
  have hk : k < 16 := Nat.lt_of_le_of_lt hk (by decide)
  have hinv : s.Inv k role := inv_of_run hk hover hend hinit hrun
  have hinv' : s'.Inv k role := hinv.run hk hrun'
  obtain ⟨hsender, haccepted⟩ : s'.sender = s.sender ∧ s'.accepted = s.accepted :=
    run_invariant_of_mem (P := fun t => t.sender = s.sender ∧ t.accepted = s.accepted) ⟨rfl, rfl⟩
      (fun event hevent t t' ht hstep => by
        obtain ⟨hsender, haccepted⟩ := handler_frame (hhandler event hevent) hstep
        exact ⟨hsender.trans ht.1, haccepted.trans ht.2⟩) hrun'
  refine ⟨?_, haccepted, fun hstuck => ?_⟩
  · have hle := length_le_of_decreasing hinv (fun event _ t t' ht hstep => ht.step hk hstep)
      (fun event hevent t t' ht hstep => ht.work_step (hhandler event hevent) hstep) hrun'
    have hwork := hinv.work_le
    omega
  · obtain ⟨hidle, hnotified⟩ := idle_of_stuck hstuck
    have hreturned := hinv'.wake hidle hnotified (hsender ▸ hkick)
    refine ⟨?_, hreturned.trans (congrArg _ haccepted)⟩
    have hcalled : s'.receiver.called = 0 := congrArg ReceiverPc.called hidle
    rw [hinv'.buffers.received, hcalled, hreturned, Nat.add_zero, List.take_length, haccepted]

/-- The handler drains two packets that were sent under one notification. -/
theorem drained_of_run_two :
    ∃ vrings s s', rpmsgLiteMasterInit (2 ^ 1) 0x20340000 0x2000 = some vrings ∧
      run (step (2 ^ 1) .master) (sendCall ⟨40, 30, [1]⟩ ++ sendCall ⟨40, 30, [2]⟩)
        (start (Role.master.txVring vrings) (fun _ => ⟨0, 0, 0⟩) fun _ => 0) = some s ∧
      run (step (2 ^ 1) .master) (.interrupt :: List.replicate 15 .receiver) s = some s' ∧
      s'.received = s.accepted ∧ s'.returned = s.accepted.length := by
  refine ⟨_, _, _, rfl, rfl, rfl, ?_⟩
  refine (@drained_of_run 1 .master _ _ (sendCall ⟨40, 30, [1]⟩ ++ sendCall ⟨40, 30, [2]⟩)
    0x20340000 0x2000 _ (fun _ => ⟨0, 0, 0⟩) (fun _ => 0)
    (.interrupt :: List.replicate 15 .receiver) (by decide) (by decide) (by decide) rfl rfl
    (by decide) (by simp [Event.isHandler]) rfl).2.2 ?_
  rintro (_ | _ | _ | _) hevent <;> first | rfl | cases hevent

end Channel

end VioFrontend
