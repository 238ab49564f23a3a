import VioFrontend.Multicore.Messages
import VioFrontend.Multicore.VirtqueueRuns

/-!
# The cores on their virtqueue

The threads of the two cores with the virtqueue from the master to the slave between them, in place
of the ring of messages that `Multicore.Basic` puts there. An interrupt handler of the slave runs to
its end before the thread of the slave goes on. Every run is a run of the cores with the ring: a
message enters the ring when its buffer enters that of the master, and leaves it when the buffer is
returned.
-/

namespace VioFrontend

open Runs Channel

/-- The cores, whose own `ring` and `sent` stay empty, and the channel. -/
structure Link where
  cores : Cores Packet
  channel : Channel

namespace Link

/-- `send_message` sends a whole `Message`, and the handler of a message is installed with the
slave's instance. -/
def Possible (l : Link) : Event → Prop
  | .send packet => l.cores.master = .running ∧ packet.data.length = messageSize
  | .interrupt => l.cores.remoteInit = true
  | .sender | .receiver => True

instance : ∀ (l : Link) (event : Event), Decidable (l.Possible event)
  | l, .send packet =>
    inferInstanceAs (Decidable (l.cores.master = .running ∧ packet.data.length = messageSize))
  | l, .interrupt => inferInstanceAs (Decidable (l.cores.remoteInit = true))
  | _, .sender | _, .receiver => isTrue trivial

/-- A step of a thread or of an interrupt that does not concern the messages. -/
def coresStep (a : Action Packet) (l : Link) : Option Link :=
  match a with
  | .send _ | .messageInterrupt => none
  | .slave | .timeout =>
    if l.channel.receiver = .idle then
      (Cores.step a l.cores).map fun cores => { l with cores }
    else none
  | a => (Cores.step a l.cores).map fun cores => { l with cores }

/-- The endpoint is called with the packets that the step has read. -/
def receive (l : Link) (channel : Channel) : Link where
  cores := { l.cores with
    taken := l.cores.taken ++ (channel.received.drop l.channel.received.length).map fun packet =>
      (packet, l.cores.endpointCallback packet.data.length) }
  channel := channel

def channelStep (event : Event) (l : Link) : Option Link :=
  if l.Possible event then
    (Channel.step rlBufferCount .master event l.channel).map l.receive
  else none

def step : Action Packet ⊕ Event → Link → Option Link
  | .inl a, l => l.coresStep a
  | .inr event, l => l.channelStep event

/-- The cores after a reset; `vring` is the vring to the slave as the master will set it up. -/
def reset (vring : Vring) (hdr : ℕ → RpmsgStdHdr) (memory : ℕ → UInt8) : Link where
  cores := Cores.reset Packet
  channel := Channel.start vring hdr memory

/-! ### The cores with the ring -/

/-- The cores with the ring of messages that the channel stands for. -/
def abstract (l : Link) : Cores Packet :=
  { l.cores with
    ring := l.channel.accepted.drop l.channel.returned
    sent := l.channel.accepted
    taken := l.cores.taken.take l.channel.returned }

/-- The step of the cores with the ring that an access to the channel stands for: a message is sent
where its buffer is entered or where no buffer is free, and taken where its buffer is returned. -/
def channelLabels (role : Role) : Event → Channel → List (Action Packet)
  | .sender, s =>
    match s.sender with
    | .txAlloc packet =>
      if s.senderIdx = (s.vring.ring role.other).idx then [.send packet] else []
    | .updateIdx packet => [.send packet]
    | _ => []
  | .receiver, s =>
    match s.receiver with
    | .updateIdx => [.messageInterrupt]
    | _ => []
  | _, _ => []

def labels : Action Packet ⊕ Event → Link → List (Action Packet)
  | .inl a, _ => [a]
  | .inr event, l => channelLabels .master event l.channel

end Link

/-! ### What a step does to the messages -/

namespace Channel

variable {role : Role} {n : ℕ} {s s' : Channel}

/-- A step of the sender enters a packet into its ring, or gives up, or changes no message. -/
lemma senderStep_messages (h : s.senderStep n role = some s') :
    s'.receiver = s.receiver ∧ s'.received = s.received ∧ s'.returned = s.returned ∧
      ((Link.channelLabels role .sender s = [] ∧ s'.accepted = s.accepted ∧
          s'.sender.packet? = s.sender.packet?) ∨
        (∃ packet, s.sender = .txAlloc packet ∧ s.senderIdx = (s.vring.ring role.other).idx ∧
          Link.channelLabels role .sender s = [.send packet] ∧ s'.accepted = s.accepted ∧
          s'.sender = .idle) ∨
        ∃ packet, s.sender = .updateIdx packet ∧
          Link.channelLabels role .sender s = [.send packet] ∧
          s'.accepted = s.accepted ++ [packet] ∧ s'.sender = .kick) := by
  rcases s with ⟨vring, hdr, memory, senderIdx, receiverIdx, sender, _⟩
  cases sender with
  | idle => simp only [senderStep, reduceCtorEq] at h
  | txAlloc packet =>
    simp only [senderStep] at h
    split_ifs at h with hidx <;> obtain rfl := Option.some.inj h
    · exact ⟨rfl, rfl, rfl, Or.inr (Or.inl ⟨packet, rfl, hidx, if_pos hidx, rfl, rfl⟩)⟩
    · exact ⟨rfl, rfl, rfl, Or.inl ⟨if_neg hidx, rfl, rfl⟩⟩
  | writeData packet idx buffer i =>
    simp only [senderStep] at h
    split at h <;> obtain rfl := Option.some.inj h <;>
      exact ⟨rfl, rfl, rfl, Or.inl ⟨rfl, rfl, rfl⟩⟩
  | getIdx packet | writeHdr packet idx buffer | updateSlot packet idx | kick =>
    obtain rfl := Option.some.inj h
    exact ⟨rfl, rfl, rfl, Or.inl ⟨rfl, rfl, rfl⟩⟩
  | updateIdx packet =>
    obtain rfl := Option.some.inj h
    exact ⟨rfl, rfl, rfl, Or.inr (Or.inr ⟨packet, rfl, rfl, rfl, rfl⟩)⟩

/-- A step of the receiver reads the last byte of a packet, or returns its buffer, or changes no
message. -/
lemma receiverStep_messages (h : s.receiverStep n role = some s') :
    s.receiver ≠ .idle ∧
      ((Link.channelLabels role .receiver s = [] ∧ s'.received = s.received ∧
          s'.returned = s.returned ∧ s'.receiver.called = s.receiver.called) ∨
        (Link.channelLabels role .receiver s = [] ∧
          (∃ packet, s'.received = s.received ++ [packet]) ∧ s'.returned = s.returned ∧
          s.receiver.called = 0 ∧ s'.receiver.called = 1) ∨
        (Link.channelLabels role .receiver s = [.messageInterrupt] ∧ s'.received = s.received ∧
          s'.returned = s.returned + 1 ∧ s.receiver.called = 1 ∧ s'.receiver.called = 0)) := by
  rcases s with ⟨vring, hdr, memory, senderIdx, receiverIdx, sender, receiver, _⟩
  cases receiver with
  | idle => simp only [receiverStep, reduceCtorEq] at h
  | rx =>
    simp only [receiverStep] at h
    split_ifs at h <;> obtain rfl := Option.some.inj h <;>
      exact ⟨by simp, Or.inl ⟨rfl, rfl, rfl, rfl⟩⟩
  | getIdx | readHdr idx buffer | updateSlot idx =>
    obtain rfl := Option.some.inj h
    exact ⟨by simp, Or.inl ⟨rfl, rfl, rfl, rfl⟩⟩
  | readData idx buffer hdr data =>
    simp only [receiverStep] at h
    split_ifs at h <;> obtain rfl := Option.some.inj h
    · exact ⟨by simp, Or.inl ⟨rfl, rfl, rfl, rfl⟩⟩
    · exact ⟨by simp, Or.inr (Or.inl ⟨rfl, ⟨_, rfl⟩, rfl, rfl, rfl⟩)⟩
  | updateIdx =>
    obtain rfl := Option.some.inj h
    exact ⟨by simp, Or.inr (Or.inr ⟨rfl, rfl, rfl, rfl, rfl⟩)⟩

end Channel

namespace Link

/-! ### The invariant -/

structure LinkInv (l : Link) : Prop where
  channel : l.channel.Inv 1 .master
  size : ∀ packet ∈ l.channel.accepted ++ l.channel.sender.packet?.toList,
    packet.data.length = messageSize
  running : l.channel.sender ≠ .idle → l.cores.master = .running
  endpoint : 9 ≤ l.cores.master.executed → l.cores.masterEndpoint = true
  remoteInit : l.channel.receiver ≠ .idle → l.cores.remoteInit = true
  taken : l.cores.taken.map Prod.fst = l.channel.received
  /-- Before its buffer is returned, the endpoint has not changed. -/
  outcome : l.channel.receiver.called = 1 → ∀ t, l.cores.taken[l.channel.returned]? = some t →
    t.2 = l.cores.endpointCallback messageSize

variable {l l' : Link}

/-- The messages of the cores do not matter to what does not concern them. -/
lemma cores_step_messages {a : Action Packet} (hsend : ∀ message, a ≠ .send message)
    (hinterrupt : a ≠ .messageInterrupt) (c : Cores Packet) (ring sent : List Packet)
    (taken : List (Packet × Outcome)) :
    Cores.step a { c with ring, sent, taken }
      = (Cores.step a c).map fun c => { c with ring, sent, taken } := by
  rcases c with ⟨master, slave, startupData, eventCallback, applicationEvents, rings,
    masterEndpoint, remoteInit, kicks, _⟩
  cases a with
  | send message => exact absurd rfl (hsend message)
  | messageInterrupt => exact absurd rfl hinterrupt
  | master =>
    cases master with
    | waitForStartup | waitForLinkReady | waitForEndpointReady =>
      simp only [Cores.step, Cores.masterStep]
      split_ifs <;> rfl
    | _ => rfl
  | slave =>
    cases slave with
    | getStartupData => cases startupData <;> rfl
    | waitForLinkUp =>
      simp only [Cores.step, Cores.slaveStep]
      split_ifs <;> rfl
    | _ => rfl
  | timeout =>
    simp only [Cores.step]
    split_ifs <;> rfl
  | startupInterrupt => cases startupData <;> rfl
  | eventInterrupt =>
    simp only [Cores.step]
    split_ifs
    · cases applicationEvents.deliver <;> rfl
    · rfl
  | kickInterrupt =>
    cases kicks with
    | zero => rfl
    | succ kicks =>
      simp only [Cores.step]
      split_ifs <;> rfl

lemma coresStep_cases {a : Action Packet} (h : l.coresStep a = some l') :
    ∃ cores, Cores.step a l.cores = some cores ∧ l' = { l with cores } ∧
      (∀ message, a ≠ .send message) ∧ a ≠ .messageInterrupt ∧
      (l.channel.receiver ≠ .idle → a ≠ .slave ∧ a ≠ .timeout) := by
  cases a with
  | send message | messageInterrupt => cases h
  | slave | timeout =>
    simp only [coresStep] at h
    split_ifs at h with hidle
    obtain ⟨cores, hcores, rfl⟩ := Option.map_eq_some_iff.mp h
    exact ⟨cores, hcores, rfl, by simp, by simp, fun hne => absurd hidle hne⟩
  | master | startupInterrupt | eventInterrupt | kickInterrupt =>
    obtain ⟨cores, hcores, rfl⟩ := Option.map_eq_some_iff.mp h
    exact ⟨cores, hcores, rfl, by simp, by simp, fun _ => ⟨by simp, by simp⟩⟩

/-- What the threads and the other interrupts leave to the messages. -/
structure Undisturbed (a : Action Packet) (c c' : Cores Packet) : Prop where
  running : c.master = .running → c'.master = .running
  endpoint : (9 ≤ c.master.executed → c.masterEndpoint = true) →
    9 ≤ c'.master.executed → c'.masterEndpoint = true
  remoteInit : c.remoteInit = true → c'.remoteInit = true
  endpointCallback : a ≠ .slave ∧ a ≠ .timeout →
    c'.endpointCallback messageSize = c.endpointCallback messageSize

lemma undisturbed_of_step {a : Action Packet} {c c' : Cores Packet}
    (h : Cores.step a c = some c') (hsend : ∀ message, a ≠ .send message)
    (hinterrupt : a ≠ .messageInterrupt) : Undisturbed a c c' := by
  cases a with
  | send message => exact absurd rfl (hsend message)
  | messageInterrupt => exact absurd rfl hinterrupt
  | master =>
    have hrunning : c.master ≠ .running := by
      intro hrunning
      simp only [Cores.step, Cores.masterStep, hrunning, reduceCtorEq] at h
    rcases masterStep_cases h with rfl | ⟨pc, hpc, -, -, rfl⟩
    · exact ⟨id, id, id, fun _ => rfl⟩
    · refine ⟨fun hmaster => absurd hmaster hrunning, fun hendpoint hle => ?_, id, fun _ => rfl⟩
      replace hle : 9 ≤ pc.executed := hle
      rcases Nat.lt_or_eq_of_le hle with hlt | heq
      · exact Bool.or_eq_true_iff.mpr (Or.inl (hendpoint (by omega)))
      · exact Bool.or_eq_true_iff.mpr (Or.inr (decide_eq_true heq.symm))
  | slave =>
    rcases slaveStep_cases h with ⟨startupData, messageCallback, rfl⟩ | ⟨pc, -, -, -, rfl⟩
    · exact ⟨id, id, id, fun hne => absurd rfl hne.1⟩
    · exact ⟨id, id, fun hinit => Bool.or_eq_true_iff.mpr (Or.inl hinit),
        fun hne => absurd rfl hne.1⟩
  | timeout =>
    simp only [Cores.step] at h
    split_ifs at h
    cases h
    exact ⟨id, id, id, fun _ => rfl⟩
  | startupInterrupt =>
    simp only [Cores.step] at h
    split at h <;> cases h <;> exact ⟨id, id, id, fun _ => rfl⟩
  | eventInterrupt =>
    simp only [Cores.step] at h
    split_ifs at h
    · obtain ⟨applicationEvents, -, h⟩ := Option.bind_eq_some_iff.mp h
      cases h
      exact ⟨id, id, id, fun _ => rfl⟩
    · cases h
      exact ⟨id, id, id, fun _ => rfl⟩
  | kickInterrupt =>
    simp only [Cores.step] at h
    split at h
    · cases h
    · split_ifs at h <;> cases h <;> exact ⟨id, id, id, fun _ => rfl⟩

lemma LinkInv.coresStep (h : l.LinkInv) {a : Action Packet} (hstep : l.coresStep a = some l') :
    l'.LinkInv := by
  obtain ⟨cores, hcores, rfl, hsend, hinterrupt, hthread⟩ := coresStep_cases hstep
  have hframe := undisturbed_of_step hcores hsend hinterrupt
  have htaken := (step_keepsMessages hcores hsend hinterrupt).taken
  refine ⟨h.channel, h.size, fun hne => hframe.running (h.running hne),
    hframe.endpoint h.endpoint, fun hne => hframe.remoteInit (h.remoteInit hne),
    (congrArg _ htaken).trans h.taken, fun hcalled t ht => ?_⟩
  have hidle : l.channel.receiver ≠ .idle := by
    intro hidle
    rw [hidle] at hcalled
    cases hcalled
  dsimp only at ht
  rw [htaken] at ht
  rw [hframe.endpointCallback (hthread hidle)]
  exact h.outcome hcalled t ht

/-- A step that does not concern the messages is that step of the cores with the ring. -/
lemma abstract_coresStep {a : Action Packet} (hstep : l.coresStep a = some l') :
    Cores.step a l.abstract = some l'.abstract := by
  obtain ⟨cores, hcores, rfl, hsend, hinterrupt, -⟩ := coresStep_cases hstep
  have htaken := (step_keepsMessages hcores hsend hinterrupt).taken
  rw [abstract, cores_step_messages hsend hinterrupt, hcores, Option.map_some]
  rw [abstract, htaken]

/-! ### Accesses to the channel -/

lemma channelStep_cases {event : Event} (h : l.channelStep event = some l') :
    l.Possible event ∧
      ∃ channel, Channel.step rlBufferCount .master event l.channel = some channel ∧
        l' = l.receive channel := by
  simp only [channelStep] at h
  split_ifs at h with hpossible
  obtain ⟨channel, hchannel, rfl⟩ := Option.map_eq_some_iff.mp h
  exact ⟨hpossible, channel, hchannel, rfl⟩

/-- A step that reads no packet to its end. -/
lemma receive_eq {channel : Channel} (h : channel.received = l.channel.received) :
    l.receive channel = { l with channel } := by
  rw [receive, h, List.drop_length, List.map_nil, List.append_nil]

/-- A step of the master's `send_message`, or of an interrupt before the packets are read. -/
lemma LinkInv.of_keeps (h : l.LinkInv) {channel : Channel} (hchannel : channel.Inv 1 .master)
    (hsize : ∀ packet ∈ channel.accepted ++ channel.sender.packet?.toList,
      packet.data.length = messageSize)
    (hrunning : channel.sender ≠ .idle → l.cores.master = .running)
    (hinit : channel.receiver ≠ .idle → l.cores.remoteInit = true)
    (hreceived : channel.received = l.channel.received)
    (hreturned : channel.returned = l.channel.returned)
    (hcalled : channel.receiver.called = l.channel.receiver.called) :
    (l.receive channel).LinkInv := by
  rw [receive_eq hreceived]
  refine ⟨hchannel, hsize, hrunning, h.endpoint, hinit, h.taken.trans hreceived.symm, ?_⟩
  intro hone t ht
  exact h.outcome (hcalled ▸ hone) t (hreturned ▸ ht)

lemma LinkInv.taken_length (h : l.LinkInv) :
    l.cores.taken.length = l.channel.returned + l.channel.receiver.called := by
  have hreceiver := h.channel.rings.receiver_le
  have hcalled := l.channel.receiver.called_le
  have hlength := congrArg List.length h.taken
  rw [List.length_map, h.channel.buffers.received, List.length_take,
    min_eq_left (by omega)] at hlength
  exact hlength

/-- What is read before its buffer is returned is still in the ring. -/
lemma LinkInv.abstract_receive (h : l.LinkInv) {channel : Channel}
    (haccepted : channel.accepted = l.channel.accepted)
    (hreturned : channel.returned = l.channel.returned) :
    (l.receive channel).abstract = l.abstract := by
  have hle : l.channel.returned ≤ l.cores.taken.length := by
    rw [h.taken_length]
    exact Nat.le_add_right ..
  simp only [abstract, receive, haccepted, hreturned, List.take_append_of_le_length hle]

/-- The steps of the cores with the ring lead from the one to the other. -/
def Simulates (l l' : Link) (actions : List (Action Packet)) : Prop :=
  run Cores.step actions l.abstract = some l'.abstract

lemma simulates_nil (h : l'.abstract = l.abstract) : l.Simulates l' [] := congrArg some h.symm

lemma simulates_singleton {a : Action Packet}
    (h : Cores.step a l.abstract = some l'.abstract) : l.Simulates l' [a] := by
  rw [Simulates, run_cons, h]
  rfl

lemma LinkInv.sender (h : l.LinkInv) {channel : Channel}
    (hstep : l.channel.senderStep rlBufferCount .master = some channel) :
    (l.receive channel).LinkInv ∧
      l.Simulates (l.receive channel) (channelLabels .master .sender l.channel) := by
  have hinv : channel.Inv 1 .master := h.channel.senderStep (by decide) hstep
  obtain ⟨hreceiver, hreceived, hreturned, hcases⟩ := senderStep_messages hstep
  have hinit : channel.receiver ≠ .idle → l.cores.remoteInit = true := by
    rw [hreceiver]
    exact h.remoteInit
  have hrunning : l.cores.master = .running := by
    refine h.running fun hidle => ?_
    simp only [senderStep, hidle, reduceCtorEq] at hstep
  have hcalled := congrArg ReceiverPc.called hreceiver
  rcases hcases with ⟨hlabel, haccepted, hpacket⟩ | ⟨packet, hpc, hidx, hlabel, haccepted, hidle⟩ |
    ⟨packet, hpc, hlabel, haccepted, hkick⟩
  · rw [hlabel]
    refine ⟨h.of_keeps hinv ?_ (fun _ => hrunning) hinit hreceived hreturned hcalled,
      simulates_nil (h.abstract_receive haccepted hreturned)⟩
    rw [haccepted, hpacket]
    exact h.size
  · -- all buffers are on their way, and so the ring is full
    rw [hlabel]
    refine ⟨h.of_keeps hinv ?_ (fun _ => hrunning) hinit hreceived hreturned hcalled, ?_⟩
    · rw [haccepted, hidle]
      intro packet hmem
      exact h.size packet (List.mem_append_left _ (by simpa [SenderPc.packet?] using hmem))
    · have hempty := (h.channel.rings.senderIdx_eq_iff (by decide)).mp hidx
      rw [hpc] at hempty
      have hfull : ¬ l.abstract.ring.length < rlBufferCount := by
        rw [abstract, List.length_drop]
        dsimp only [SenderPc.holding] at hempty
        exact Nat.not_lt.mpr (by rw [rlBufferCount]; omega)
      have habstract : l.abstract.master = .running := hrunning
      refine simulates_singleton ?_
      simp only [Cores.step, if_pos habstract, Cores.sendMessage, hfull, and_false,
        if_false]
      rw [h.abstract_receive haccepted hreturned]
  · rw [hlabel]
    refine ⟨h.of_keeps hinv ?_ (fun _ => hrunning) hinit hreceived hreturned hcalled, ?_⟩
    · have hsize := h.size
      rw [hpc] at hsize
      rw [haccepted, hkick]
      simpa [SenderPc.packet?] using hsize
    · have hle := h.channel.rings.sender_le
      rw [hpc] at hle
      have hfree : l.abstract.ring.length < rlBufferCount := by
        rw [abstract, List.length_drop, rlBufferCount]
        dsimp only [SenderPc.holding] at hle
        omega
      have habstract : l.abstract.master = .running := hrunning
      have hendpoint : l.abstract.masterEndpoint = true := h.endpoint (by
        rw [hrunning]
        decide)
      refine simulates_singleton ?_
      simp only [Cores.step, if_pos habstract, Cores.sendMessage,
        if_pos (And.intro hendpoint hfree)]
      have hdrop : l.channel.returned ≤ l.channel.accepted.length :=
        le_of_add_le_left h.channel.rings.receiver_le
      rw [receive_eq hreceived, abstract, abstract]
      simp only [haccepted, hreturned, List.drop_append_of_le_length hdrop]

/-- The message whose buffer is returned next. -/
lemma LinkInv.taken_getElem (h : l.LinkInv) (hcalled : l.channel.receiver.called = 1)
    {packet : Packet} (hlookup : l.channel.accepted[l.channel.returned]? = some packet) :
    l.cores.taken[l.channel.returned]?
      = some (packet, l.cores.endpointCallback messageSize) := by
  have hlength := h.taken_length
  have hlt : l.channel.returned < l.cores.taken.length := by omega
  have ht := List.getElem?_eq_getElem hlt
  have houtcome := h.outcome hcalled _ ht
  have hfst : (l.cores.taken.map Prod.fst)[l.channel.returned]? = some packet := by
    rw [h.taken, h.channel.buffers.received, List.getElem?_take_of_lt (by omega), hlookup]
  rw [List.getElem?_map, ht, Option.map_some] at hfst
  rw [ht]
  exact congrArg some (Prod.ext (Option.some.inj hfst) houtcome)

lemma LinkInv.receiver (h : l.LinkInv) {channel : Channel}
    (hstep : l.channel.receiverStep rlBufferCount .master = some channel) :
    (l.receive channel).LinkInv ∧
      l.Simulates (l.receive channel) (channelLabels .master .receiver l.channel) := by
  have hinv : channel.Inv 1 .master := h.channel.receiverStep (by decide) hstep
  obtain ⟨hsender, haccepted, -⟩ := receiverStep_frame hstep
  obtain ⟨hidle, hcases⟩ := receiverStep_messages hstep
  have hsize : ∀ packet ∈ channel.accepted ++ channel.sender.packet?.toList,
      packet.data.length = messageSize := by
    rw [hsender, haccepted]
    exact h.size
  have hrunning : channel.sender ≠ .idle → l.cores.master = .running := by
    rw [hsender]
    exact h.running
  have hinit := fun _ : channel.receiver ≠ .idle => h.remoteInit hidle
  rcases hcases with ⟨hlabel, hreceived, hreturned, hcalled⟩ |
    ⟨hlabel, ⟨packet, hreceived⟩, hreturned, hcalled, hcalled'⟩ |
    ⟨hlabel, hreceived, hreturned, hcalled, hcalled'⟩
  · rw [hlabel]
    exact ⟨h.of_keeps hinv hsize hrunning hinit hreceived hreturned hcalled,
      simulates_nil (h.abstract_receive haccepted hreturned)⟩
  · -- the endpoint is called with a packet
    rw [hlabel]
    refine ⟨?_, simulates_nil (h.abstract_receive haccepted hreturned)⟩
    have hmem : packet ∈ channel.accepted := by
      have hlast : packet ∈ channel.received := by
        rw [hreceived]
        exact List.mem_concat_self
      rw [hinv.buffers.received] at hlast
      exact List.mem_of_mem_take hlast
    have hlen := hsize packet (List.mem_append_left _ hmem)
    have htaken : (l.receive channel).cores.taken
        = l.cores.taken ++ [(packet, l.cores.endpointCallback messageSize)] := by
      rw [receive, hreceived, List.drop_left, List.map_singleton, hlen]
    have hlength := h.taken_length
    refine ⟨hinv, hsize, hrunning, h.endpoint, hinit, ?_, fun _ t ht => ?_⟩
    · rw [htaken, List.map_append, h.taken]
      exact hreceived.symm
    · rw [htaken, List.getElem?_append_right (by rw [hlength, hcalled]; exact hreturned.ge)] at ht
      have hmem := List.mem_of_getElem? ht
      rw [List.mem_singleton.mp hmem]
      rfl
  · rw [hlabel]
    constructor
    · rw [receive_eq hreceived]
      exact ⟨hinv, hsize, hrunning, h.endpoint, hinit, h.taken.trans hreceived.symm,
        fun hone => absurd (hcalled'.symm.trans hone) (by decide)⟩
    · have hlt : l.channel.returned < l.channel.accepted.length := by
        have hle := h.channel.rings.receiver_le
        have hone := l.channel.receiver.called_le
        omega
      have hlookup := List.getElem?_eq_getElem hlt
      have htaken := h.taken_getElem hcalled hlookup
      have hremote : l.cores.remoteInit = true := h.remoteInit hidle
      rw [receive_eq hreceived]
      refine simulates_singleton ?_
      simp only [Cores.step, abstract, List.drop_eq_getElem_cons hlt, hremote, if_true,
        haccepted, hreturned, List.take_add_one, htaken, Option.toList_some]
      rfl

lemma LinkInv.channelStep (h : l.LinkInv) {event : Event}
    (hstep : l.channelStep event = some l') :
    l'.LinkInv ∧ l.Simulates l' (channelLabels .master event l.channel) := by
  obtain ⟨hpossible, channel, hchannel, rfl⟩ := channelStep_cases hstep
  have hinv : channel.Inv 1 .master := h.channel.step (by decide) hchannel
  cases event with
  | sender => exact h.sender hchannel
  | receiver => exact h.receiver hchannel
  | send packet =>
    obtain ⟨hrunning, hlen⟩ := hpossible
    simp only [Channel.step] at hchannel
    split_ifs at hchannel with hidle hfit <;> obtain rfl := Option.some.inj hchannel
    · exact ⟨h.of_keeps hinv h.size (fun _ => hrunning) h.remoteInit rfl rfl rfl,
        simulates_nil (h.abstract_receive rfl rfl)⟩
    · refine ⟨h.of_keeps hinv ?_ (fun _ => hrunning) h.remoteInit rfl rfl rfl,
        simulates_nil (h.abstract_receive rfl rfl)⟩
      intro packet' hmem
      rcases List.mem_append.mp hmem with hmem | hmem
      · exact h.size packet' (List.mem_append_left _ hmem)
      · rwa [List.mem_singleton.mp hmem]
  | interrupt =>
    simp only [Channel.step] at hchannel
    split_ifs at hchannel with hidle
    obtain rfl := Option.some.inj hchannel
    refine ⟨h.of_keeps hinv h.size h.running (fun _ => hpossible) rfl rfl ?_,
      simulates_nil (h.abstract_receive rfl rfl)⟩
    rw [hidle.1]
    rfl

lemma LinkInv.reset {vring : Vring} (h : vring.Filled 1 .master) (hdr : ℕ → RpmsgStdHdr)
    (memory : ℕ → UInt8) : (Link.reset vring hdr memory).LinkInv := by
  refine ⟨Channel.Inv.start h hdr memory, ?_, fun hne => absurd rfl hne, ?_,
    fun hne => absurd rfl hne, rfl, fun hone => ?_⟩
  · exact fun packet hmem => absurd hmem List.not_mem_nil
  · exact fun hle => absurd hle (show ¬ 9 ≤ MasterPc.mcmgrInit.executed by decide)
  · cases hone

/-! ### The refinement -/

/-- Every interleaving of the cores and of the accesses to the virtqueue is an interleaving of the
cores with the ring of `rlBufferCount` messages: a message is sent and handed to the endpoint there
as it is here, and a send finds the ring full there when it finds no buffer here. -/
theorem run_abstract {addr length : ℕ} {vrings : Vring × Vring} {hdr : ℕ → RpmsgStdHdr}
    {memory : ℕ → UInt8} {events : List (Action Packet ⊕ Event)}
    (hover : rlVringOverhead ≤ length) (hend : addr + length < 2 ^ 32)
    (hinit : rpmsgLiteMasterInit rlBufferCount addr length = some vrings)
    (hrun : run step events (reset (Role.master.txVring vrings) hdr memory) = some l) :
    run Cores.step (trace step labels events (reset (Role.master.txVring vrings) hdr memory))
        (Cores.reset Packet) = some l.abstract ∧
      l.cores.taken.map Prod.fst = l.channel.received := by
  have hfilled : (Role.master.txVring vrings).Filled 1 .master :=
    rpmsgLiteMasterInit_filled (k := 1) (by decide) hover hend hinit .master
  have hreset : Cores.reset Packet = (reset (Role.master.txVring vrings) hdr memory).abstract := rfl
  have hsteps : ∀ event (l l' : Link) c, l.LinkInv ∧ c = l.abstract → step event l = some l' →
      ∃ c', run Cores.step (labels event l) c = some c' ∧ l'.LinkInv ∧ c' = l'.abstract := by
    rintro (a | event) l l' c ⟨h, rfl⟩ hstep
    · exact ⟨_, simulates_singleton (abstract_coresStep hstep), h.coresStep hstep, rfl⟩
    · obtain ⟨hl, hsimulates⟩ := h.channelStep hstep
      exact ⟨_, hsimulates, hl, rfl⟩
  obtain ⟨c, hc, hl, rfl⟩ := run_trace hsteps ⟨LinkInv.reset hfilled hdr memory, hreset⟩ hrun
  exact ⟨hc, hl.taken⟩

/-- Both cores boot, and the master sends a message. -/
def bootAndSend (message : List UInt8) : List (Action Packet ⊕ Event) :=
  bootActions.map Sum.inl ++ (sendCall ⟨40, 30, message⟩).map Sum.inr

theorem run_abstract_bootAndSend :
    ∃ vrings l, rpmsgLiteMasterInit rlBufferCount 0x20340000 0x2000 = some vrings ∧
      run step (bootAndSend (List.replicate messageSize 7))
        (reset (Role.master.txVring vrings) (fun _ => ⟨0, 0, 0⟩) fun _ => 0) = some l ∧
      l.abstract.sent = [⟨40, 30, List.replicate messageSize 7⟩] ∧
      run Cores.step (trace step labels (bootAndSend (List.replicate messageSize 7))
        (reset (Role.master.txVring vrings) (fun _ => ⟨0, 0, 0⟩) fun _ => 0))
        (Cores.reset Packet) = some l.abstract := by
  refine ⟨_, _, rfl, (Option.some_get ?_).symm, ?_, ?_⟩
  · decide +kernel
  · decide +kernel
  · exact (@run_abstract _ 0x20340000 0x2000 _ _ _ _ (by decide) (by decide) rfl
      (Option.some_get _).symm).1

end Link

end VioFrontend
