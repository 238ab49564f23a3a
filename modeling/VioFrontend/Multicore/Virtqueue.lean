import VioFrontend.Multicore.Basic
import VioFrontend.Library.RingBuffer

/-!
# Messages in shared memory

A virtqueue of RPMsg-Lite carries the messages of one direction. The two cores exchange a pool of
buffers over the two rings of its vring: the master writes the indices of buffers into `avail` and
takes those that the remote core writes into `used`. A core that sends takes a free buffer from the
ring of the other core, fills it and puts it into its own ring; the interrupt handler of the core
that receives does the same with the buffers that are full.

Each access to the shared memory is a step of its own, so a list of actions is an interleaving of
`rpmsg_lite_send` on one core with `rpmsg_lite_rx_callback` on the other. The barriers of the code
keep the accesses of a core in order.
-/

namespace VioFrontend

/-- The role of a core on the link. -/
inductive Role
  | master | remote
  deriving DecidableEq

def Role.other : Role → Role
  | .master => .remote
  | .remote => .master

/-- `RL_BUFFER_PAYLOAD_SIZE`. -/
def rlBufferPayloadSize : ℕ := 496

/-- The size of `rpmsg_std_hdr`. -/
def rpmsgStdHdrSize : ℕ := 16

/-- `RL_BUFFER_SIZE`. -/
def rlBufferSize : ℕ := rlBufferPayloadSize + rpmsgStdHdrSize

/-- A message with the addresses of its endpoints. -/
structure Packet where
  src : ℕ
  dst : ℕ
  data : List UInt8
  deriving DecidableEq

/-- The header of a buffer. -/
structure RpmsgStdHdr where
  src : ℕ
  dst : ℕ
  len : ℕ
  deriving DecidableEq

def Packet.hdr (packet : Packet) : RpmsgStdHdr := ⟨packet.src, packet.dst, packet.data.length⟩

/-- The addresses of the buffers and the two rings of their indices. -/
structure Vring where
  desc : ℕ → ℕ
  avail : RingBuffer 16 ℕ
  used : RingBuffer 16 ℕ

namespace Vring

/-- The ring that a core writes. -/
def ring (v : Vring) : Role → RingBuffer 16 ℕ
  | .master => v.avail
  | .remote => v.used

def setRing (v : Vring) : Role → RingBuffer 16 ℕ → Vring
  | .master, avail => { v with avail }
  | .remote, used => { v with used }

@[simp] lemma desc_setRing (v : Vring) (role : Role) (r : RingBuffer 16 ℕ) :
    (v.setRing role r).desc = v.desc := by cases role <;> rfl

@[simp] lemma ring_setRing (v : Vring) (role : Role) (r : RingBuffer 16 ℕ) :
    (v.setRing role r).ring role = r := by cases role <;> rfl

@[simp] lemma ring_setRing_other (v : Vring) (role : Role) (r : RingBuffer 16 ℕ) :
    (v.setRing role r).ring role.other = v.ring role.other := by cases role <;> rfl

@[simp] lemma ring_other_setRing (v : Vring) (role : Role) (r : RingBuffer 16 ℕ) :
    (v.setRing role.other r).ring role = v.ring role := by cases role <;> rfl

end Vring

/-- Where `rpmsg_lite_send` is. -/
inductive SenderPc
  | idle
  /-- `vq_tx_alloc`: before the comparison of the indices, and before the read of the ring. -/
  | txAlloc (packet : Packet)
  | getIdx (packet : Packet)
  /-- The buffer is filled. -/
  | writeHdr (packet : Packet) (idx buffer : ℕ)
  | writeData (packet : Packet) (idx buffer i : ℕ)
  /-- `vq_tx`: before the slot of the ring is written, and before its index is. -/
  | updateSlot (packet : Packet) (idx : ℕ)
  | updateIdx (packet : Packet)
  | kick
  deriving DecidableEq

/-- Where `rpmsg_lite_rx_callback` is. -/
inductive ReceiverPc
  | idle
  /-- `vq_rx`: before the comparison of the indices, and before the read of the ring. -/
  | rx
  | getIdx
  /-- The buffer is read. -/
  | readHdr (idx buffer : ℕ)
  | readData (idx buffer : ℕ) (hdr : RpmsgStdHdr) (data : List UInt8)
  /-- `vq_rx_free`: before the slot of the ring is written, and before its index is. -/
  | updateSlot (idx : ℕ)
  | updateIdx
  deriving DecidableEq

/-- The virtqueue of one direction. -/
structure Channel where
  vring : Vring
  /-- The headers and the bytes of the buffers, by their addresses. -/
  hdr : ℕ → RpmsgStdHdr
  memory : ℕ → UInt8
  /-- How far each core has read the ring of the other: `vq_used_cons_idx` of the master and
  `vq_available_idx` of the remote core. -/
  senderIdx : BitVec 16
  receiverIdx : BitVec 16
  sender : SenderPc
  receiver : ReceiverPc
  /-- The notification of the sender is in the register of the messaging unit. -/
  notified : Bool
  /-- The packets whose `rpmsg_lite_send` has made them available to the receiver. -/
  accepted : List Packet
  /-- The packets that the receiver has looked up an endpoint for. -/
  received : List Packet
  /-- How many buffers the receiver has returned. -/
  returned : ℕ

namespace Channel

/-- The next access of the core that sends; `n` is the number of buffers and `role` the role of
this core. -/
def senderStep (n : ℕ) (role : Role) (s : Channel) : Option Channel :=
  match s.sender with
  | .idle => none
  | .txAlloc packet =>
    -- without a free buffer a send that does not block gives up
    if s.senderIdx = (s.vring.ring role.other).idx then some { s with sender := .idle }
    else some { s with sender := .getIdx packet }
  | .getIdx packet =>
    let idx := (s.vring.ring role.other).peek n s.senderIdx
    some { s with
      senderIdx := s.senderIdx + 1
      sender := .writeHdr packet idx (s.vring.desc idx) }
  | .writeHdr packet idx buffer =>
    some { s with
      hdr := Function.update s.hdr buffer packet.hdr
      sender := .writeData packet idx buffer 0 }
  | .writeData packet idx buffer i =>
    match packet.data[i]? with
    | some byte =>
      some { s with
        memory := Function.update s.memory (buffer + rpmsgStdHdrSize + i) byte
        sender := .writeData packet idx buffer (i + 1) }
    | none => some { s with sender := .updateSlot packet idx }
  | .updateSlot packet idx =>
    some { s with
      vring := s.vring.setRing role ((s.vring.ring role).place n idx)
      sender := .updateIdx packet }
  | .updateIdx packet =>
    some { s with
      vring := s.vring.setRing role (s.vring.ring role).publish
      accepted := s.accepted ++ [packet]
      sender := .kick }
  | .kick => some { s with notified := true, sender := .idle }

/-- The next access of the interrupt handler of the other core. -/
def receiverStep (n : ℕ) (role : Role) (s : Channel) : Option Channel :=
  match s.receiver with
  | .idle => none
  | .rx =>
    if s.receiverIdx = (s.vring.ring role).idx then some { s with receiver := .idle }
    else some { s with receiver := .getIdx }
  | .getIdx =>
    let idx := (s.vring.ring role).peek n s.receiverIdx
    some { s with
      receiverIdx := s.receiverIdx + 1
      receiver := .readHdr idx (s.vring.desc idx) }
  | .readHdr idx buffer => some { s with receiver := .readData idx buffer (s.hdr buffer) [] }
  | .readData idx buffer hdr data =>
    if data.length < hdr.len then
      let byte := s.memory (buffer + rpmsgStdHdrSize + data.length)
      some { s with receiver := .readData idx buffer hdr (data ++ [byte]) }
    else
      some { s with
        received := s.received ++ [⟨hdr.src, hdr.dst, data⟩]
        receiver := .updateSlot idx }
  | .updateSlot idx =>
    some { s with
      vring := s.vring.setRing role.other ((s.vring.ring role.other).place n idx)
      receiver := .updateIdx }
  | .updateIdx =>
    some { s with
      vring := s.vring.setRing role.other (s.vring.ring role.other).publish
      returned := s.returned + 1
      receiver := .rx }

/-- What can happen next on a channel. -/
inductive Event
  /-- The sender calls `rpmsg_lite_send`. -/
  | send (packet : Packet)
  | sender
  /-- The receiver takes the interrupt of the notification. -/
  | interrupt
  | receiver
  deriving DecidableEq

def step (n : ℕ) (role : Role) : Event → Channel → Option Channel
  | .send packet, s =>
    if s.sender = .idle then
      if packet.data.length > rlBufferPayloadSize then some s
      else some { s with sender := .txAlloc packet }
    else none
  | .sender, s => s.senderStep n role
  | .interrupt, s =>
    if s.receiver = .idle ∧ s.notified = true then
      some { s with notified := false, receiver := .rx }
    else none
  | .receiver, s => s.receiverStep n role

end Channel

/-- A channel over a vring before anything is sent. -/
def Channel.start (vring : Vring) (hdr : ℕ → RpmsgStdHdr) (memory : ℕ → UInt8) : Channel where
  vring := vring
  hdr := hdr
  memory := memory
  senderIdx := 0
  receiverIdx := 0
  sender := .idle
  receiver := .idle
  notified := false
  accepted := []
  received := []
  returned := 0

end VioFrontend
