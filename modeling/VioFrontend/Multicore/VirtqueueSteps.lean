import VioFrontend.Multicore.VirtqueueInvariant

/-!
# The steps of a channel

Every step of either core keeps the invariant. A core changes only what is its own: its position,
its index, the ring that it writes and, in the case of the sender, the buffer that it has taken.
-/

namespace VioFrontend

open RingBuffer

namespace Channel

variable {k : ℕ} {role : Role} {s s' : Channel}

/-! ### Steps of the sender -/

lemma RingsInv.senderStep (h : s.RingsInv k role) (hk : k < 16) (hat : s.SenderAt k role)
    (hstep : s.senderStep (2 ^ k) role = some s') : s'.RingsInv k role := by
  obtain ⟨hfree, hfull, hsenderIdx, hreceiverIdx, hsender, hreceiver⟩ := h
  rcases s with ⟨vring, hdr, memory, senderIdx, receiverIdx, sender, receiver, _⟩
  cases sender with
  | idle => simp only [senderStep, reduceCtorEq] at hstep
  | txAlloc packet =>
    simp only [senderStep] at hstep
    split_ifs at hstep <;> obtain rfl := Option.some.inj hstep <;>
      exact ⟨hfree, hfull, hsenderIdx, hreceiverIdx, hsender, hreceiver⟩
  | getIdx packet =>
    obtain rfl := Option.some.inj hstep
    obtain ⟨-, hlt⟩ := hat
    refine ⟨hfree.advance (Nat.le_succ _), hfull, ?_, hreceiverIdx, ?_, hreceiver⟩
    · exact (congrArg (· + 1) hsenderIdx).trans (ofNat_add_one _)
    · dsimp only [SenderPc.holding] at hlt ⊢
      omega
  | writeHdr packet idx buffer =>
    obtain rfl := Option.some.inj hstep
    exact ⟨hfree, hfull, hsenderIdx, hreceiverIdx, hsender, hreceiver⟩
  | writeData packet idx buffer i =>
    simp only [senderStep] at hstep
    split at hstep <;> obtain rfl := Option.some.inj hstep <;>
      exact ⟨hfree, hfull, hsenderIdx, hreceiverIdx, hsender, hreceiver⟩
  | updateSlot packet idx =>
    obtain rfl := Option.some.inj hstep
    refine ⟨?_, ?_, hsenderIdx, hreceiverIdx, hsender, hreceiver⟩ <;>
      simp only [Vring.ring_setRing_other, Vring.ring_setRing]
    · exact hfree
    · dsimp only [SenderPc.holding] at *
      exact hfull.place hk.le (by omega) idx
  | updateIdx packet =>
    obtain rfl := Option.some.inj hstep
    obtain ⟨-, -, hslot⟩ := hat
    refine ⟨?_, ?_, ?_, hreceiverIdx, ?_, ?_⟩ <;>
      simp only [List.length_append, List.length_singleton, SenderPc.holding,
        Vring.ring_setRing_other, Vring.ring_setRing]
    · exact hfree
    · exact hfull.publish hslot
    · exact hsenderIdx
    · exact hsender
    · exact Nat.le_succ_of_le hreceiver
  | kick =>
    obtain rfl := Option.some.inj hstep
    exact ⟨hfree, hfull, hsenderIdx, hreceiverIdx, hsender, hreceiver⟩

/-- The sender writes only into the buffer it has taken. -/
lemma BuffersInv.senderStep (h : s.BuffersInv k) (hrings : s.RingsInv k role)
    (hat : s.SenderAt k role) (hstep : s.senderStep (2 ^ k) role = some s') :
    s'.BuffersInv k := by
  obtain ⟨hapart, hfits, hstored, hreceived⟩ := h
  have hcalled := s.receiver.called_le
  have hreceiver := hrings.receiver_le
  rcases s with ⟨vring, hdr, memory, senderIdx, receiverIdx, sender, receiver, notified, accepted,
    received, returned⟩
  cases sender with
  | idle => simp only [Channel.senderStep, reduceCtorEq] at hstep
  | txAlloc packet =>
    simp only [Channel.senderStep] at hstep
    split_ifs at hstep <;> obtain rfl := Option.some.inj hstep <;>
      exact ⟨hapart, hfits, hstored, hreceived⟩
  | getIdx packet | kick =>
    obtain rfl := Option.some.inj hstep
    exact ⟨hapart, hfits, hstored, hreceived⟩
  | writeHdr packet idx buffer =>
    obtain rfl := Option.some.inj hstep
    obtain ⟨-, hidx, hbuffer⟩ := hat
    dsimp only at *
    subst hbuffer hidx
    refine ⟨hapart, hfits, fun j stored hj hlookup => ?_, hreceived⟩
    obtain ⟨hlt, -⟩ := List.getElem?_eq_some_iff.mp hlookup
    have hne := hrings.turn_ne rfl hj hlt
    refine (hstored j stored hj hlookup).of_eq ?_ fun _ _ => rfl
    exact Function.update_of_ne (BuffersApart.ne hapart (turn_lt k j) (turn_lt k _) hne) _ _
  | writeData packet idx buffer i =>
    obtain ⟨hlen, ⟨hidx, hbuffer⟩, -, -⟩ := hat
    dsimp only at *
    subst hbuffer hidx
    simp only [Channel.senderStep] at hstep
    split at hstep <;> obtain rfl := Option.some.inj hstep
    next byte hbyte =>
      refine ⟨hapart, hfits, fun j stored hj hlookup => ?_, hreceived⟩
      obtain ⟨hlt, -⟩ := List.getElem?_eq_some_iff.mp hlookup
      obtain ⟨hi, -⟩ := List.getElem?_eq_some_iff.mp hbyte
      have hne := hrings.turn_ne rfl hj hlt
      have hfit := hfits stored (List.mem_of_getElem? hlookup)
      refine (hstored j stored hj hlookup).of_eq rfl fun l hl => ?_
      exact Function.update_of_ne (BuffersApart.byte_ne hapart (turn_lt k j) (turn_lt k _) hne
        (hl.trans_le hfit) (hi.trans_le hlen)) _ _
    next => exact ⟨hapart, hfits, hstored, hreceived⟩
  | updateSlot packet idx =>
    obtain rfl := Option.some.inj hstep
    refine ⟨?_, hfits, fun j stored hj hlookup => ?_, hreceived⟩
    · simpa only [Vring.desc_setRing] using hapart
    · rw [Vring.desc_setRing]
      exact hstored j stored hj hlookup
  | updateIdx packet =>
    obtain rfl := Option.some.inj hstep
    obtain ⟨hlen, hnew, -⟩ := hat
    refine ⟨?_, ?_, fun j stored hj hlookup => ?_, ?_⟩ <;> dsimp only at *
    · simpa only [Vring.desc_setRing] using hapart
    · intro stored hmem
      rcases List.mem_append.mp hmem with hmem | hmem
      · exact hfits stored hmem
      · obtain rfl := List.mem_singleton.mp hmem
        exact hlen
    · rw [Vring.desc_setRing]
      rcases Nat.lt_or_ge j accepted.length with hlt | hge
      · rw [List.getElem?_append_left hlt] at hlookup
        exact hstored j stored hj hlookup
      · rw [List.getElem?_append_right hge, List.getElem?_singleton] at hlookup
        split_ifs at hlookup with hzero
        obtain rfl : j = accepted.length := by omega
        obtain rfl := Option.some.inj hlookup
        exact hnew
    · rw [List.take_append_of_le_length (by omega)]
      exact hreceived

lemma SenderAt.senderStep (h : s.SenderAt k role) (hrings : s.RingsInv k role) (hk : k < 16)
    (hstep : s.senderStep (2 ^ k) role = some s') : s'.SenderAt k role := by
  have hempty := hrings.senderIdx_eq_iff hk
  have hpeek := hrings.peek_free hk
  have hsender := hrings.sender_le
  have hslot := hrings.full.slot_place hk.le
  rcases s with ⟨vring, hdr, memory, senderIdx, receiverIdx, sender, receiver, _⟩
  cases sender with
  | idle => simp only [Channel.senderStep, reduceCtorEq] at hstep
  | txAlloc packet =>
    simp only [Channel.senderStep] at hstep
    split_ifs at hstep with hidx <;> obtain rfl := Option.some.inj hstep
    · trivial
    · exact ⟨h, lt_of_le_of_ne hsender fun heq => hidx (hempty.mpr heq)⟩
  | getIdx packet =>
    obtain rfl := Option.some.inj hstep
    exact ⟨h.1, hpeek h.2, rfl⟩
  | writeHdr packet idx buffer =>
    obtain rfl := Option.some.inj hstep
    obtain ⟨hlen, hat⟩ := h
    exact ⟨hlen, hat, Function.update_self .., fun j hj => absurd hj (Nat.not_lt_zero j)⟩
  | writeData packet idx buffer i =>
    obtain ⟨hlen, hat, hhdr, hbytes⟩ := h
    simp only [Channel.senderStep] at hstep
    split at hstep <;> obtain rfl := Option.some.inj hstep
    next byte hbyte =>
      refine ⟨hlen, hat, hhdr, fun j hj stored hstored => ?_⟩
      rcases Nat.lt_succ_iff_lt_or_eq.mp hj with hj | rfl
      · exact (Function.update_of_ne (by omega) _ _).trans (hbytes j hj stored hstored)
      · obtain rfl := Option.some.inj (hbyte.symm.trans hstored)
        exact Function.update_self ..
    next hnone =>
      obtain ⟨hidx, hbuffer⟩ := hat
      dsimp only at *
      subst hbuffer hidx
      refine ⟨hlen, rfl, hhdr, fun j byte hbyte => hbytes j ?_ byte hbyte⟩
      obtain ⟨hj, -⟩ := List.getElem?_eq_some_iff.mp hbyte
      exact hj.trans_le (List.getElem?_eq_none_iff.mp hnone)
  | updateSlot packet idx =>
    obtain rfl := Option.some.inj hstep
    obtain ⟨hlen, hidx, hnew⟩ := h
    refine ⟨hlen, ?_, ?_⟩
    · rw [Vring.desc_setRing]
      exact hnew
    · rw [Vring.ring_setRing]
      exact (hslot idx).trans hidx
  | updateIdx packet | kick =>
    obtain rfl := Option.some.inj hstep
    trivial

/-- What a step of the sender leaves as it is, and what it can only add. -/
lemma senderStep_frame {n : ℕ} (hstep : s.senderStep n role = some s') :
    s'.receiver = s.receiver ∧ s'.returned = s.returned ∧ s.accepted <+: s'.accepted ∧
      s'.vring.desc = s.vring.desc ∧ s'.vring.ring role.other = s.vring.ring role.other := by
  rcases s with ⟨vring, hdr, memory, senderIdx, receiverIdx, sender, _⟩
  cases sender with
  | idle => simp only [Channel.senderStep, reduceCtorEq] at hstep
  | txAlloc packet | writeData packet idx buffer i =>
    simp only [Channel.senderStep] at hstep
    split at hstep <;> obtain rfl := Option.some.inj hstep <;>
      exact ⟨rfl, rfl, List.prefix_rfl, rfl, rfl⟩
  | getIdx packet | writeHdr packet idx buffer | kick =>
    obtain rfl := Option.some.inj hstep
    exact ⟨rfl, rfl, List.prefix_rfl, rfl, rfl⟩
  | updateSlot packet idx =>
    obtain rfl := Option.some.inj hstep
    exact ⟨rfl, rfl, List.prefix_rfl, Vring.desc_setRing .., Vring.ring_setRing_other ..⟩
  | updateIdx packet =>
    obtain rfl := Option.some.inj hstep
    exact ⟨rfl, rfl, List.prefix_append .., Vring.desc_setRing .., Vring.ring_setRing_other ..⟩

lemma ReceiverAt.senderStep (h : s.ReceiverAt k role)
    (hstep : s.senderStep (2 ^ k) role = some s') : s'.ReceiverAt k role := by
  obtain ⟨hpc, hreturned, hprefix, hdesc, hring⟩ := senderStep_frame hstep
  simp only [ReceiverAt, hpc, hreturned, hdesc, hring] at h ⊢
  cases hreceiver : s.receiver <;> simp only [hreceiver] at h ⊢
  case getIdx => exact h.trans_le hprefix.length_le
  case readHdr idx buffer => exact h
  case readData idx buffer hdr data =>
    obtain ⟨hidx, packet, hlookup, hdata⟩ := h
    obtain ⟨hlt, -⟩ := List.getElem?_eq_some_iff.mp hlookup
    obtain ⟨rest, hrest⟩ := hprefix
    refine ⟨hidx, packet, ?_, hdata⟩
    rw [← hrest, List.getElem?_append_left hlt, hlookup]
  case updateSlot idx => exact h
  case updateIdx => exact h

lemma Inv.senderStep (h : s.Inv k role) (hk : k < 16)
    (hstep : s.senderStep (2 ^ k) role = some s') : s'.Inv k role := by
  refine ⟨h.rings.senderStep hk h.senderAt hstep, h.buffers.senderStep h.rings h.senderAt hstep,
    h.senderAt.senderStep h.rings hk hstep, h.receiverAt.senderStep hstep, ?_⟩
  have hwake := h.wake
  rcases s with ⟨vring, hdr, memory, senderIdx, receiverIdx, sender, _⟩
  cases sender with
  | idle => simp only [Channel.senderStep, reduceCtorEq] at hstep
  | txAlloc packet | writeData packet idx buffer i =>
    simp only [Channel.senderStep] at hstep
    split at hstep <;> obtain rfl := Option.some.inj hstep <;>
      exact fun hidle hnotified _ => hwake hidle hnotified (by simp)
  | getIdx packet | writeHdr packet idx buffer | updateSlot packet idx =>
    obtain rfl := Option.some.inj hstep
    exact fun hidle hnotified _ => hwake hidle hnotified (by simp)
  | updateIdx packet =>
    obtain rfl := Option.some.inj hstep
    exact fun _ _ hkick => absurd rfl hkick
  | kick =>
    obtain rfl := Option.some.inj hstep
    exact fun _ hnotified _ => absurd hnotified (by simp)

/-! ### Steps of the receiver -/

lemma RingsInv.receiverStep (h : s.RingsInv k role) (hk : k < 16) (hat : s.ReceiverAt k role)
    (hstep : s.receiverStep (2 ^ k) role = some s') : s'.RingsInv k role := by
  obtain ⟨hfree, hfull, hsenderIdx, hreceiverIdx, hsender, hreceiver⟩ := h
  rcases s with ⟨vring, hdr, memory, senderIdx, receiverIdx, sender, receiver, notified, accepted,
    received, returned⟩
  cases receiver with
  | idle => simp only [Channel.receiverStep, reduceCtorEq] at hstep
  | rx | readData idx buffer hdr data =>
    simp only [Channel.receiverStep] at hstep
    split_ifs at hstep <;> obtain rfl := Option.some.inj hstep <;>
      exact ⟨hfree, hfull, hsenderIdx, hreceiverIdx, hsender, hreceiver⟩
  | getIdx =>
    obtain rfl := Option.some.inj hstep
    refine ⟨hfree, hfull.advance (Nat.le_succ _), hsenderIdx, ?_, hsender, hat⟩
    exact (congrArg (· + 1) hreceiverIdx).trans (ofNat_add_one _)
  | readHdr idx buffer =>
    obtain rfl := Option.some.inj hstep
    exact ⟨hfree, hfull, hsenderIdx, hreceiverIdx, hsender, hreceiver⟩
  | updateSlot idx =>
    obtain rfl := Option.some.inj hstep
    refine ⟨?_, ?_, hsenderIdx, hreceiverIdx, hsender, hreceiver⟩ <;>
      simp only [Vring.ring_other_setRing, Vring.ring_setRing]
    · dsimp only [ReceiverPc.holding] at *
      exact hfree.place hk.le (by omega) idx
    · exact hfull
  | updateIdx =>
    obtain rfl := Option.some.inj hstep
    refine ⟨?_, ?_, hsenderIdx, hreceiverIdx, ?_, hreceiver⟩ <;>
      simp only [Vring.ring_other_setRing, Vring.ring_setRing]
    · refine hfree.publish ?_
      rw [turn_add]
      exact (congrArg _ (turn_add k returned)).trans hat
    · exact hfull
    · exact Nat.le_succ_of_le hsender

/-- What a step of the receiver leaves as it is, and what it can only add. -/
lemma receiverStep_frame {n : ℕ} (hstep : s.receiverStep n role = some s') :
    s'.sender = s.sender ∧ s'.accepted = s.accepted ∧ s.returned ≤ s'.returned ∧
      s'.hdr = s.hdr ∧ s'.memory = s.memory ∧ s'.notified = s.notified ∧
      s'.vring.desc = s.vring.desc ∧ s'.vring.ring role = s.vring.ring role := by
  rcases s with ⟨vring, hdr, memory, senderIdx, receiverIdx, sender, receiver, _⟩
  cases receiver with
  | idle => simp only [Channel.receiverStep, reduceCtorEq] at hstep
  | rx | readData idx buffer hdr data =>
    simp only [Channel.receiverStep] at hstep
    split_ifs at hstep <;> obtain rfl := Option.some.inj hstep <;>
      exact ⟨rfl, rfl, le_rfl, rfl, rfl, rfl, rfl, rfl⟩
  | getIdx | readHdr idx buffer =>
    obtain rfl := Option.some.inj hstep
    exact ⟨rfl, rfl, le_rfl, rfl, rfl, rfl, rfl, rfl⟩
  | updateSlot idx =>
    obtain rfl := Option.some.inj hstep
    exact ⟨rfl, rfl, le_rfl, rfl, rfl, rfl, Vring.desc_setRing .., Vring.ring_other_setRing ..⟩
  | updateIdx =>
    obtain rfl := Option.some.inj hstep
    exact ⟨rfl, rfl, Nat.le_succ _, rfl, rfl, rfl, Vring.desc_setRing ..,
      Vring.ring_other_setRing ..⟩

lemma SenderAt.receiverStep (h : s.SenderAt k role)
    (hstep : s.receiverStep (2 ^ k) role = some s') : s'.SenderAt k role := by
  obtain ⟨hpc, haccepted, hreturned, hhdr, hmemory, -, hdesc, hring⟩ := receiverStep_frame hstep
  simp only [SenderAt, Stored, hpc, haccepted, hhdr, hmemory, hdesc, hring] at h ⊢
  cases hsender : s.sender <;> simp only [hsender] at h ⊢
  case getIdx packet => exact ⟨h.1, h.2.trans_le (Nat.add_le_add_left hreturned _)⟩
  all_goals exact h

lemma ReceiverAt.receiverStep (h : s.ReceiverAt k role) (hrings : s.RingsInv k role)
    (hbuffers : s.BuffersInv k) (hk : k < 16)
    (hstep : s.receiverStep (2 ^ k) role = some s') : s'.ReceiverAt k role := by
  have hempty := hrings.receiverIdx_eq_iff hk
  have hpeek := hrings.peek_full hk
  have hreceiver := hrings.receiver_le
  have hslot := hrings.free.slot_place hk.le
  have hstored := hbuffers.stored
  rcases s with ⟨vring, hdr, memory, senderIdx, receiverIdx, sender, receiver, notified, accepted,
    received, returned⟩
  cases receiver with
  | idle => simp only [Channel.receiverStep, reduceCtorEq] at hstep
  | rx =>
    simp only [Channel.receiverStep] at hstep
    split_ifs at hstep with hidx <;> obtain rfl := Option.some.inj hstep
    · trivial
    · exact lt_of_le_of_ne hreceiver fun heq => hidx (hempty.mpr heq)
  | getIdx =>
    obtain rfl := Option.some.inj hstep
    exact ⟨hpeek h, rfl⟩
  | readHdr idx buffer =>
    obtain rfl := Option.some.inj hstep
    obtain ⟨hidx, hbuffer⟩ := h
    dsimp only at *
    subst hbuffer hidx
    obtain ⟨packet, hlookup⟩ : ∃ packet, accepted[returned]? = some packet :=
      ⟨_, List.getElem?_eq_getElem hreceiver⟩
    exact ⟨⟨rfl, rfl⟩, packet, hlookup, (hstored returned packet le_rfl hlookup).1,
      List.nil_prefix⟩
  | readData idx buffer hdr data =>
    obtain ⟨⟨hidx, hbuffer⟩, packet, hlookup, hhdr, rest, hrest⟩ := h
    dsimp only at *
    subst hbuffer hidx
    simp only [Channel.receiverStep] at hstep
    split_ifs at hstep with hlen <;> obtain rfl := Option.some.inj hstep
    · rw [hhdr, Packet.hdr, ← hrest, List.length_append] at hlen
      cases rest with
      | nil => exact absurd hlen (by simp)
      | cons byte rest =>
        have hbyte : memory (vring.desc (turn k returned) + rpmsgStdHdrSize + data.length) = byte :=
          (hstored returned packet le_rfl hlookup).2 data.length byte
            (by rw [← hrest, List.getElem?_append_right le_rfl, Nat.sub_self]; rfl)
        refine ⟨⟨rfl, rfl⟩, packet, hlookup, hhdr, rest, ?_⟩
        rw [hbyte, List.append_assoc]
        exact hrest
    · exact rfl
  | updateSlot idx =>
    obtain rfl := Option.some.inj hstep
    refine Eq.trans ?_ h
    rw [Vring.ring_setRing]
    exact (congrArg _ (turn_add k returned).symm).trans (hslot idx)
  | updateIdx =>
    obtain rfl := Option.some.inj hstep
    trivial

lemma BuffersInv.receiverStep (h : s.BuffersInv k) (hat : s.ReceiverAt k role)
    (hstep : s.receiverStep (2 ^ k) role = some s') : s'.BuffersInv k := by
  obtain ⟨-, haccepted, hreturned, hhdr, hmemory, -, hdesc, -⟩ := receiverStep_frame hstep
  refine ⟨hdesc ▸ h.apart, haccepted ▸ h.fits, fun j packet hj hlookup => ?_, ?_⟩
  · rw [haccepted] at hlookup
    have hstored := h.stored j packet (hreturned.trans hj) hlookup
    simpa only [Stored, hdesc, hhdr, hmemory] using hstored
  have hreceived := h.received
  rcases s with ⟨vring, hdr, memory, senderIdx, receiverIdx, sender, receiver, notified, accepted,
    received, returned⟩
  cases receiver with
  | idle => simp only [Channel.receiverStep, reduceCtorEq] at hstep
  | rx =>
    simp only [Channel.receiverStep] at hstep
    split_ifs at hstep <;> obtain rfl := Option.some.inj hstep <;> exact hreceived
  | getIdx | readHdr idx buffer | updateSlot idx | updateIdx =>
    obtain rfl := Option.some.inj hstep
    exact hreceived
  | readData idx buffer hdr data =>
    simp only [Channel.receiverStep] at hstep
    split_ifs at hstep with hlen <;> obtain rfl := Option.some.inj hstep
    · exact hreceived
    · -- the whole packet has been read
      obtain ⟨-, packet, hlookup, hpacket, rest, hrest⟩ := hat
      rw [hpacket, Packet.hdr, ← hrest, List.length_append] at hlen
      dsimp only at hlen
      obtain rfl : rest = [] := List.eq_nil_of_length_eq_zero (by omega)
      rw [List.append_nil] at hrest
      dsimp only [ReceiverPc.called] at *
      rw [hreceived, hpacket, hrest, Nat.add_zero, List.take_add_one, hlookup]
      rfl

lemma Inv.receiverStep (h : s.Inv k role) (hk : k < 16)
    (hstep : s.receiverStep (2 ^ k) role = some s') : s'.Inv k role := by
  refine ⟨h.rings.receiverStep hk h.receiverAt hstep, h.buffers.receiverStep h.receiverAt hstep,
    h.senderAt.receiverStep hstep, h.receiverAt.receiverStep h.rings h.buffers hk hstep, ?_⟩
  have hempty := h.rings.receiverIdx_eq_iff hk
  rcases s with ⟨vring, hdr, memory, senderIdx, receiverIdx, sender, receiver, _⟩
  cases receiver with
  | idle => simp only [Channel.receiverStep, reduceCtorEq] at hstep
  | rx =>
    simp only [Channel.receiverStep] at hstep
    split_ifs at hstep with hidx <;> obtain rfl := Option.some.inj hstep
    · exact fun _ _ _ => hempty.mp hidx
    · exact fun hidle => nomatch hidle
  | readData idx buffer hdr data =>
    simp only [Channel.receiverStep] at hstep
    split_ifs at hstep <;> obtain rfl := Option.some.inj hstep <;> exact fun hidle => nomatch hidle
  | getIdx | readHdr idx buffer | updateSlot idx | updateIdx =>
    obtain rfl := Option.some.inj hstep
    exact fun hidle => nomatch hidle

/-! ### Runs -/

lemma Inv.step (h : s.Inv k role) (hk : k < 16) {event : Event}
    (hstep : Channel.step (2 ^ k) role event s = some s') : s'.Inv k role := by
  cases event with
  | sender => exact h.senderStep hk hstep
  | receiver => exact h.receiverStep hk hstep
  | send packet =>
    obtain ⟨hrings, hbuffers, hsender, hreceiver, hwake⟩ := h
    simp only [Channel.step] at hstep
    split_ifs at hstep with hidle hlen <;> obtain rfl := Option.some.inj hstep
    · exact ⟨hrings, hbuffers, hsender, hreceiver, hwake⟩
    · rcases s with ⟨vring, hdr, memory, senderIdx, receiverIdx, sender, _⟩
      obtain rfl : sender = .idle := hidle
      exact ⟨⟨hrings.free, hrings.full, hrings.senderIdx, hrings.receiverIdx, hrings.sender_le,
        hrings.receiver_le⟩, ⟨hbuffers.apart, hbuffers.fits, hbuffers.stored, hbuffers.received⟩,
        Nat.not_lt.mp hlen, hreceiver,
        fun hidle hnotified _ => hwake hidle hnotified (by simp)⟩
  | interrupt =>
    obtain ⟨hrings, hbuffers, hsender, hreceiver, hwake⟩ := h
    simp only [Channel.step] at hstep
    split_ifs at hstep with hidle
    obtain rfl := Option.some.inj hstep
    rcases s with ⟨vring, hdr, memory, senderIdx, receiverIdx, sender, receiver, _⟩
    obtain rfl : receiver = .idle := hidle.1
    exact ⟨⟨hrings.free, hrings.full, hrings.senderIdx, hrings.receiverIdx, hrings.sender_le,
      hrings.receiver_le⟩, ⟨hbuffers.apart, hbuffers.fits, hbuffers.stored, hbuffers.received⟩,
      hsender, trivial, fun hidle => nomatch hidle⟩

end Channel

end VioFrontend
