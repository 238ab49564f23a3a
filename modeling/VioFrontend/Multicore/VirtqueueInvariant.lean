import VioFrontend.Multicore.Virtqueue

/-!
# The invariant of a channel

The buffers go around in order: the element with number `j` of either ring is the buffer
`j % 2 ^ k`, and the packet with number `j` travels in it. So the invariant counts what each core
has taken and put, and says what the buffers of the packets hold that have not been returned.
-/

namespace VioFrontend

open RingBuffer

/-- The buffer of the packet with number `j`. -/
def turn (k j : ℕ) : ℕ := j % 2 ^ k

lemma turn_lt (k j : ℕ) : turn k j < 2 ^ k := Nat.mod_lt _ (Nat.two_pow_pos k)

lemma turn_ne {k i j : ℕ} (hlt : i < j) (hnear : j - i < 2 ^ k) : turn k i ≠ turn k j :=
  fun h => hlt.ne (eq_of_mod_eq hlt.le hnear h)

lemma turn_add (k j : ℕ) : turn k (2 ^ k + j) = turn k j := Nat.add_mod_left _ _

/-- The buffers do not overlap. -/
def BuffersApart (n : ℕ) (desc : ℕ → ℕ) : Prop :=
  ∀ i < n, ∀ j < n, i ≠ j → desc i + rlBufferSize ≤ desc j ∨ desc j + rlBufferSize ≤ desc i

/-- The sender has taken a buffer that it has not put into its ring yet. -/
def SenderPc.holding : SenderPc → ℕ
  | .writeHdr .. | .writeData .. | .updateSlot .. | .updateIdx .. => 1
  | _ => 0

/-- The receiver has taken a buffer that it has not returned yet. -/
def ReceiverPc.holding : ReceiverPc → ℕ
  | .readHdr .. | .readData .. | .updateSlot .. | .updateIdx => 1
  | _ => 0

/-- The endpoint has been looked up for the packet in a buffer that is not returned yet. -/
def ReceiverPc.called : ReceiverPc → ℕ
  | .updateSlot .. | .updateIdx => 1
  | _ => 0

lemma ReceiverPc.called_le (pc : ReceiverPc) : pc.called ≤ pc.holding := by
  cases pc <;> simp [called, holding]

namespace Channel

/-- A buffer holds a packet. -/
def Stored (s : Channel) (buffer : ℕ) (packet : Packet) : Prop :=
  s.hdr buffer = packet.hdr ∧
    ∀ i byte, packet.data[i]? = some byte → s.memory (buffer + rpmsgStdHdrSize + i) = byte

/-- What the sender knows where it is. -/
def SenderAt (k : ℕ) (role : Role) (s : Channel) : Prop :=
  match s.sender with
  | .idle | .kick => True
  | .txAlloc packet => packet.data.length ≤ rlBufferPayloadSize
  | .getIdx packet =>
    packet.data.length ≤ rlBufferPayloadSize ∧ s.accepted.length < 2 ^ k + s.returned
  | .writeHdr packet idx buffer =>
    packet.data.length ≤ rlBufferPayloadSize ∧
      idx = turn k s.accepted.length ∧ buffer = s.vring.desc idx
  | .writeData packet idx buffer i =>
    packet.data.length ≤ rlBufferPayloadSize ∧
      (idx = turn k s.accepted.length ∧ buffer = s.vring.desc idx) ∧
      s.hdr buffer = packet.hdr ∧
      ∀ j < i, ∀ byte, packet.data[j]? = some byte →
        s.memory (buffer + rpmsgStdHdrSize + j) = byte
  | .updateSlot packet idx =>
    packet.data.length ≤ rlBufferPayloadSize ∧ idx = turn k s.accepted.length ∧
      s.Stored (s.vring.desc (turn k s.accepted.length)) packet
  | .updateIdx packet =>
    packet.data.length ≤ rlBufferPayloadSize ∧
      s.Stored (s.vring.desc (turn k s.accepted.length)) packet ∧
      (s.vring.ring role).slot (turn k s.accepted.length) = turn k s.accepted.length

/-- What the receiver knows where it is. -/
def ReceiverAt (k : ℕ) (role : Role) (s : Channel) : Prop :=
  match s.receiver with
  | .idle | .rx => True
  | .getIdx => s.returned < s.accepted.length
  | .readHdr idx buffer => idx = turn k s.returned ∧ buffer = s.vring.desc idx
  | .readData idx buffer hdr data =>
    (idx = turn k s.returned ∧ buffer = s.vring.desc idx) ∧
      ∃ packet, s.accepted[s.returned]? = some packet ∧ hdr = packet.hdr ∧ data <+: packet.data
  | .updateSlot idx => idx = turn k s.returned
  | .updateIdx => (s.vring.ring role.other).slot (turn k s.returned) = turn k s.returned

/-- What the rings hold, and how far each core has read them. -/
structure RingsInv (k : ℕ) (role : Role) (s : Channel) : Prop where
  free : Holds k (turn k) (s.accepted.length + s.sender.holding) (2 ^ k + s.returned)
    (s.vring.ring role.other)
  full : Holds k (turn k) (s.returned + s.receiver.holding) s.accepted.length (s.vring.ring role)
  senderIdx : s.senderIdx = BitVec.ofNat 16 (s.accepted.length + s.sender.holding)
  receiverIdx : s.receiverIdx = BitVec.ofNat 16 (s.returned + s.receiver.holding)
  sender_le : s.accepted.length + s.sender.holding ≤ 2 ^ k + s.returned
  receiver_le : s.returned + s.receiver.holding ≤ s.accepted.length

/-- What the buffers hold. -/
structure BuffersInv (k : ℕ) (s : Channel) : Prop where
  apart : BuffersApart (2 ^ k) s.vring.desc
  fits : ∀ packet ∈ s.accepted, packet.data.length ≤ rlBufferPayloadSize
  stored : ∀ j packet, s.returned ≤ j → s.accepted[j]? = some packet →
    s.Stored (s.vring.desc (turn k j)) packet
  received : s.received = s.accepted.take (s.returned + s.receiver.called)

structure Inv (k : ℕ) (role : Role) (s : Channel) : Prop where
  rings : s.RingsInv k role
  buffers : s.BuffersInv k
  senderAt : s.SenderAt k role
  receiverAt : s.ReceiverAt k role
  /-- A receiver that has left its handler is told of what it has not seen. -/
  wake : s.receiver = .idle → s.notified = false → s.sender ≠ .kick →
    s.returned = s.accepted.length

variable {k : ℕ} {role : Role} {s s' : Channel}

/-! ### Buffers that are written -/

/-- A write into one buffer leaves the packets in the others. -/
lemma Stored.of_eq {buffer : ℕ} {packet : Packet} (h : s.Stored buffer packet)
    (hhdr : s'.hdr buffer = s.hdr buffer)
    (hmemory : ∀ i < packet.data.length, s'.memory (buffer + rpmsgStdHdrSize + i)
      = s.memory (buffer + rpmsgStdHdrSize + i)) : s'.Stored buffer packet := by
  refine ⟨hhdr.trans h.1, fun i byte hbyte => ?_⟩
  obtain ⟨hi, -⟩ := List.getElem?_eq_some_iff.mp hbyte
  rw [hmemory i hi, h.2 i byte hbyte]

lemma BuffersApart.ne {n : ℕ} {desc : ℕ → ℕ} (h : BuffersApart n desc) {i j : ℕ} (hi : i < n)
    (hj : j < n) (hij : i ≠ j) : desc i ≠ desc j := by
  have hsize : 0 < rlBufferSize := by decide
  rcases h i hi j hj hij with h | h <;> omega

/-- The bytes of two buffers have addresses of their own. -/
lemma BuffersApart.byte_ne {n : ℕ} {desc : ℕ → ℕ} (h : BuffersApart n desc) {i j a b : ℕ}
    (hi : i < n) (hj : j < n) (hij : i ≠ j) (ha : a < rlBufferPayloadSize)
    (hb : b < rlBufferPayloadSize) :
    desc i + rpmsgStdHdrSize + a ≠ desc j + rpmsgStdHdrSize + b := by
  have hsize : rlBufferSize = rlBufferPayloadSize + rpmsgStdHdrSize := rfl
  rcases h i hi j hj hij with h | h <;> omega

/-- The sender fills a buffer that no packet is in. -/
lemma RingsInv.turn_ne (h : s.RingsInv k role) (hholding : s.sender.holding = 1) {j : ℕ}
    (hj : s.returned ≤ j) (hlt : j < s.accepted.length) :
    turn k j ≠ turn k s.accepted.length := by
  have hle := h.sender_le
  exact VioFrontend.turn_ne hlt (by omega)

/-! ### What a core reads in the ring of the other -/

lemma RingsInv.outstanding_lt (h : s.RingsInv k role) (hk : k < 16) :
    2 ^ k + s.returned - s.accepted.length < 2 ^ 16 := by
  have hpow : 2 ^ k < 2 ^ 16 := Nat.pow_lt_pow_right (by omega) hk
  have hle := h.receiver_le
  omega

/-- No buffer is free exactly if all are in the ring of the sender or taken from it. -/
lemma RingsInv.senderIdx_eq_iff (h : s.RingsInv k role) (hk : k < 16) :
    s.senderIdx = (s.vring.ring role.other).idx ↔
      s.accepted.length + s.sender.holding = 2 ^ k + s.returned := by
  have hlt := h.outstanding_lt hk
  rw [h.senderIdx, h.free.idx_eq_iff h.sender_le (by omega)]

lemma RingsInv.receiverIdx_eq_iff (h : s.RingsInv k role) (hk : k < 16) :
    s.receiverIdx = (s.vring.ring role).idx ↔
      s.returned + s.receiver.holding = s.accepted.length := by
  have hpow : 2 ^ k < 2 ^ 16 := Nat.pow_lt_pow_right (by omega) hk
  have hle := h.sender_le
  rw [h.receiverIdx, h.full.idx_eq_iff h.receiver_le (by omega)]

lemma RingsInv.peek_free (h : s.RingsInv k role) (hk : k < 16)
    (hlt : s.accepted.length + s.sender.holding < 2 ^ k + s.returned) :
    (s.vring.ring role.other).peek (2 ^ k) s.senderIdx
      = turn k (s.accepted.length + s.sender.holding) := by
  rw [h.senderIdx, h.free.peek hk.le hlt]

lemma RingsInv.peek_full (h : s.RingsInv k role) (hk : k < 16)
    (hlt : s.returned + s.receiver.holding < s.accepted.length) :
    (s.vring.ring role).peek (2 ^ k) s.receiverIdx = turn k (s.returned + s.receiver.holding) := by
  rw [h.receiverIdx, h.full.peek hk.le hlt]

end Channel

end VioFrontend
