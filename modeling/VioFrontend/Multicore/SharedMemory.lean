import VioFrontend.Multicore.VirtqueueInvariant

/-!
# The set-up of the shared memory

The master lays the two vrings out at the start of the shared memory and cuts the rest into
buffers. It enters the buffers of the vring to the master into `avail`, where the remote core finds
its free buffers, and those of the vring to the remote core into `used`.
-/

namespace VioFrontend

open RingBuffer

/-! ### The parts of a vring -/

/-- `(a + align - 1) & ~(align - 1)` on 32 bits. -/
def alignUp (align a : ℕ) : ℕ :=
  (BitVec.ofNat 32 (a + align - 1) &&& ~~~BitVec.ofNat 32 (align - 1)).toNat

/-- Where the descriptors and the rings of a vring are. -/
structure VringLayout where
  desc : ℕ
  avail : ℕ
  used : ℕ

/-- `vring_size`; a descriptor has 16 bytes, an element of `avail` 2 and one of `used` 8. -/
def vringSize (num align : ℕ) : ℕ :=
  alignUp align (num * 16 + 6 + num * 2 + 2) + 12 + num * 8 + 2

def vringInit (num p align : ℕ) : VringLayout where
  desc := p
  avail := p + num * 16
  used := alignUp align (p + num * 16 + 4 + num * 2)

/-- `VRING_SIZE` and `VRING_ALIGN` of the platform. -/
def platformVringSize : ℕ := 0x400

def platformVringAlign : ℕ := 0x10

def rlVringOverhead : ℕ := 2 * platformVringSize

def rlWordAlignUp (a : ℕ) : ℕ := if a % 4 ≠ 0 then a - a % 4 + 4 else a

def rlWordAlignDown (a : ℕ) : ℕ := if a % 4 ≠ 0 then a - a % 4 else a

/-! ### The buffers -/

/-- A vring and what its set-up carries from one buffer to the next: `vq_desc_head_idx` and, for
both vrings, `sh_mem_remaining`. -/
structure VringSetup where
  vring : Vring
  descHeadIdx : ℕ
  shMemRemaining : ℕ

/-- A vring whose memory was cleared. -/
def Vring.cleared : Vring := ⟨fun _ => 0, ⟨0, fun _ => 0⟩, ⟨0, fun _ => 0⟩⟩

/-- `virtqueue_fill_avail_buffers` and `virtqueue_fill_used_buffers`: enter a buffer into the ring
of the given role. -/
def VringSetup.fillBuffers (n : ℕ) (role : Role) (buffer : ℕ) (s : VringSetup) : VringSetup :=
  let desc := Function.update s.vring.desc s.descHeadIdx buffer
  let ring := ((s.vring.ring role).place n s.descHeadIdx).publish
  { s with vring := ({ s.vring with desc }).setRing role ring, descHeadIdx := s.descHeadIdx + 1 }

def virtqueueFillAvailBuffers (n : ℕ) : ℕ → VringSetup → VringSetup :=
  VringSetup.fillBuffers n .master

def virtqueueFillUsedBuffers (n : ℕ) : ℕ → VringSetup → VringSetup :=
  VringSetup.fillBuffers n .remote

/-- The loop that cuts `count` buffers off the shared memory and enters them into a vring; it fails
where the code asserts that there is one. -/
def fillVring (fill : ℕ → VringSetup → VringSetup) (shMemBase shMemTotal : ℕ) :
    ℕ → VringSetup → Option VringSetup
  | 0, s => some s
  | count + 1, s =>
    if s.shMemRemaining > 0 then
      let buffer := shMemBase + rlBufferSize * (shMemTotal - s.shMemRemaining)
      fillVring fill shMemBase shMemTotal count
        (fill buffer { s with shMemRemaining := s.shMemRemaining - 1 })
    else none

/-- `rpmsg_lite_master_init` with `n` buffers in each direction: the vring to the master and the
vring to the remote core. They are kept apart, as they are in memory for up to 32 buffers
(`vringSize_le`). -/
def rpmsgLiteMasterInit (n shmemAddr shmemLength : ℕ) : Option (Vring × Vring) := do
  let shMemTotal := rlWordAlignDown ((shmemLength + 2 ^ 32 - rlVringOverhead) % 2 ^ 32)
    / rlBufferSize
  if shmemAddr = 0 then none
  else if 2 * n > shMemTotal then none
  else
    let shMemBase := rlWordAlignUp ((shmemAddr + rlVringOverhead) % 2 ^ 32)
    let rvq ← fillVring (virtqueueFillAvailBuffers n) shMemBase shMemTotal (min n shMemTotal)
      ⟨.cleared, 0, shMemTotal⟩
    let tvq ← fillVring (virtqueueFillUsedBuffers n) shMemBase shMemTotal (min n shMemTotal)
      ⟨.cleared, 0, rvq.shMemRemaining⟩
    return (rvq.vring, tvq.vring)

/-- The first bytes and the sizes of the parts of the shared memory: the descriptors and the rings
of both vrings, and the buffers. -/
def sharedParts (n shmemAddr : ℕ) (vrings : Vring × Vring) : List (ℕ × ℕ) :=
  let parts (p : ℕ) :=
    let layout := vringInit n p platformVringAlign
    [(layout.desc, n * 16), (layout.avail, 4 + n * 2), (layout.used, 4 + n * 8)]
  let buffers (vring : Vring) := (List.range n).map fun i => (vring.desc i, rlBufferSize)
  parts shmemAddr ++ parts (shmemAddr + platformVringSize) ++ (buffers vrings.1 ++ buffers vrings.2)

/-! ### The parts of a vring do not overlap -/

lemma alignUp_two_pow {j a : ℕ} (ha : a + 2 ^ j ≤ 2 ^ 32) :
    alignUp (2 ^ j) a = (a + 2 ^ j - 1) / 2 ^ j * 2 ^ j := by
  have hpos : 0 < 2 ^ j := Nat.two_pow_pos j
  have hle : (a + 2 ^ j - 1) / 2 ^ j * 2 ^ j ≤ a + 2 ^ j - 1 := Nat.div_mul_le_self ..
  have hbits : BitVec.ofNat 32 (a + 2 ^ j - 1) &&& ~~~BitVec.ofNat 32 (2 ^ j - 1)
      = BitVec.ofNat 32 ((a + 2 ^ j - 1) / 2 ^ j * 2 ^ j) := by
    apply BitVec.eq_of_getLsbD_eq
    intro i hi
    simp only [BitVec.getLsbD_and, BitVec.getLsbD_not, BitVec.getLsbD_ofNat, hi, decide_true,
      Bool.true_and, Nat.testBit_two_pow_sub_one, Nat.testBit_mul_two_pow, Nat.testBit_div_two_pow]
    by_cases hij : i < j
    · simp [hij]
    · simp [hij, Nat.not_lt.mp hij]
  rw [alignUp, hbits, BitVec.toNat_ofNat, Nat.mod_eq_of_lt (by omega)]

/-- The parts of a vring follow one another within its size. -/
lemma vringInit_parts {n p : ℕ} (hp : p % platformVringAlign = 0) (hn : n ≤ 2 ^ 16)
    (hend : p + vringSize n platformVringAlign ≤ 2 ^ 32) :
    p + n * 16 + (4 + n * 2) ≤ (vringInit n p platformVringAlign).used ∧
      (vringInit n p platformVringAlign).used + (4 + n * 8)
        ≤ p + vringSize n platformVringAlign := by
  have halign : platformVringAlign = 2 ^ 4 := rfl
  rw [vringSize, halign, alignUp_two_pow (by omega)] at hend
  rw [halign] at hp
  simp only [vringInit, vringSize, halign]
  rw [alignUp_two_pow (by omega), alignUp_two_pow (by omega)]
  omega

/-! ### Both vrings are filled -/

/-- A vring whose buffers are all free for the sender of the given role. -/
structure Vring.Filled (k : ℕ) (role : Role) (vring : Vring) : Prop where
  apart : BuffersApart (2 ^ k) vring.desc
  free : Holds k (turn k) 0 (2 ^ k) (vring.ring role.other)
  full : Holds k (turn k) 0 0 (vring.ring role)

lemma Channel.Inv.start {k : ℕ} {role : Role} {vring : Vring} (h : vring.Filled k role)
    (hdr : ℕ → RpmsgStdHdr) (memory : ℕ → UInt8) :
    (Channel.start vring hdr memory).Inv k role := by
  refine ⟨⟨h.free, h.full, rfl, rfl, ?_, le_rfl⟩, ⟨h.apart, ?_, ?_, rfl⟩, trivial, trivial,
    fun _ _ _ => rfl⟩
  · exact Nat.zero_le _
  · exact fun packet hmem => absurd hmem (List.not_mem_nil)
  · exact fun j packet _ hlookup => absurd hlookup (by simp [Channel.start])

/-- The first `count` buffers have been entered; `first` buffers went to the other vring. -/
structure VringSetup.FilledTo (k : ℕ) (role : Role) (base first total count : ℕ)
    (s : VringSetup) : Prop where
  head : s.descHeadIdx = count
  remaining : s.shMemRemaining = total - (first + count)
  desc : ∀ i < count, s.vring.desc i = base + rlBufferSize * (first + i)
  free : Holds k (turn k) 0 count (s.vring.ring role.other)
  full : s.vring.ring role = ⟨0, fun _ => 0⟩

variable {k : ℕ} {role : Role}

lemma VringSetup.FilledTo.fillBuffers {base first total count : ℕ} {s : VringSetup}
    (h : s.FilledTo k role base first total count) (hk : k < 16) (hcount : count < 2 ^ k)
    (htotal : first + count < total) :
    (VringSetup.fillBuffers (2 ^ k) role.other
      (base + rlBufferSize * (total - s.shMemRemaining))
      { s with shMemRemaining := s.shMemRemaining - 1 }).FilledTo k role base first total
        (count + 1) := by
  obtain ⟨rfl, hremaining, hdesc, hfree, hfull⟩ := h
  refine ⟨rfl, ?_, fun i hi => ?_, ?_, ?_⟩ <;> dsimp only [VringSetup.fillBuffers]
  · omega
  · rw [Vring.desc_setRing]
    rcases Nat.lt_succ_iff_lt_or_eq.mp hi with hi | rfl
    · exact (Function.update_of_ne hi.ne _ _).trans (hdesc i hi)
    · refine (Function.update_self ..).trans ?_
      rw [hremaining, Nat.sub_sub_self htotal.le]
  · rw [Vring.ring_setRing]
    refine (hfree.place hk.le (by omega) s.descHeadIdx).publish ?_
    exact (hfree.slot_place hk.le _).trans (Nat.mod_eq_of_lt hcount).symm
  · exact (Vring.ring_other_setRing ..).trans hfull

lemma fillVring_spec {base first total count : ℕ} (hk : k < 16) :
    ∀ {m : ℕ} {s : VringSetup}, s.FilledTo k role base first total count → count + m ≤ 2 ^ k →
      first + count + m ≤ total →
      ∃ s', fillVring (VringSetup.fillBuffers (2 ^ k) role.other) base total m s = some s' ∧
        s'.FilledTo k role base first total (count + m) := by
  intro m
  induction m generalizing count with
  | zero => exact fun h _ _ => ⟨_, rfl, h⟩
  | succ m ih =>
    intro s h hle htotal
    have hremaining := h.remaining
    obtain ⟨s', hs', hfilled⟩ :=
      ih (h.fillBuffers hk (by omega) (by omega)) (by omega) (by omega)
    refine ⟨s', ?_, by rwa [Nat.add_right_comm] at hfilled⟩
    rw [fillVring, if_pos (by omega)]
    exact hs'

/-- Buffers that were cut off one after the other. -/
lemma buffersApart_of_desc {n base first : ℕ} {desc : ℕ → ℕ}
    (h : ∀ i < n, desc i = base + rlBufferSize * (first + i)) : BuffersApart n desc := by
  intro i hi j hj hij
  rw [h i hi, h j hj, rlBufferSize, rlBufferPayloadSize, rpmsgStdHdrSize]
  omega

lemma VringSetup.FilledTo.filled {base first total : ℕ} {s : VringSetup}
    (h : s.FilledTo k role base first total (2 ^ k)) : s.vring.Filled k role := by
  refine ⟨buffersApart_of_desc h.desc, h.free, ?_⟩
  rw [h.full]
  exact ⟨rfl, fun j _ hj => absurd hj (Nat.not_lt_zero j)⟩

lemma filledTo_cleared (k : ℕ) (role : Role) (base first total : ℕ) :
    VringSetup.FilledTo k role base first total 0 ⟨.cleared, 0, total - first⟩ := by
  refine ⟨rfl, rfl, fun i hi => absurd hi (Nat.not_lt_zero i), ?_, ?_⟩ <;> cases role
  all_goals first
    | exact rfl
    | exact ⟨rfl, fun j _ hj => absurd hj (Nat.not_lt_zero j)⟩

/-- The buffers of a vring follow one another. -/
lemma pairwise_buffers {n base first : ℕ} {desc : ℕ → ℕ}
    (h : ∀ i < n, desc i = base + rlBufferSize * (first + i)) :
    ((List.range n).map fun i => (desc i, rlBufferSize)).Pairwise fun a b => a.1 + a.2 ≤ b.1 := by
  rw [List.pairwise_map]
  refine List.pairwise_lt_range.imp_of_mem fun {i j} hi hj hij => ?_
  rw [h i (List.mem_range.mp hi), h j (List.mem_range.mp hj), rlBufferSize, rlBufferPayloadSize,
    rpmsgStdHdrSize]
  omega

/-- The words that the shared memory is cut down to make no buffer fewer. -/
lemma rlWordAlignDown_div (a : ℕ) : rlWordAlignDown a / rlBufferSize = a / rlBufferSize := by
  rw [rlWordAlignDown, rlBufferSize, rlBufferPayloadSize, rpmsgStdHdrSize]
  split_ifs <;> omega

/-- The buffers of both vrings, where they fit into the shared memory. -/
lemma rpmsgLiteMasterInit_eq {addr length : ℕ} (hk : k < 16) (hover : rlVringOverhead ≤ length)
    (hend : addr + length < 2 ^ 32)
    (hfit : addr ≠ 0 ∧ rlVringOverhead + 2 * 2 ^ k * rlBufferSize ≤ length) :
    ∃ rvq tvq, rpmsgLiteMasterInit (2 ^ k) addr length = some (rvq, tvq) ∧
      rvq.Filled k .remote ∧ tvq.Filled k .master ∧
      (∀ i < 2 ^ k, rvq.desc i = rlWordAlignUp (addr + rlVringOverhead) + rlBufferSize * i) ∧
      ∀ i < 2 ^ k, tvq.desc i
        = rlWordAlignUp (addr + rlVringOverhead) + rlBufferSize * (2 ^ k + i) := by
  obtain ⟨hnull, hfit⟩ := hfit
  have htotal : 2 * 2 ^ k ≤ rlWordAlignDown (length - rlVringOverhead) / rlBufferSize := by
    rw [rlWordAlignDown_div]
    exact (Nat.le_div_iff_mul_le (by decide)).mpr (Nat.le_sub_of_add_le' hfit)
  have hlength : (length + 2 ^ 32 - rlVringOverhead) % 2 ^ 32 = length - rlVringOverhead := by
    omega
  have haddr : (addr + rlVringOverhead) % 2 ^ 32 = addr + rlVringOverhead :=
    Nat.mod_eq_of_lt (by omega)
  simp only [rpmsgLiteMasterInit, hlength, haddr, if_neg hnull]
  generalize rlWordAlignDown (length - rlVringOverhead) / rlBufferSize = total at htotal
  generalize rlWordAlignUp (addr + rlVringOverhead) = base
  obtain ⟨rvq, hrvq, hrfilled⟩ := fillVring_spec (m := 2 ^ k) hk
    (filledTo_cleared k .remote base 0 total) (by omega) (by omega)
  obtain ⟨tvq, htvq, htfilled⟩ := fillVring_spec (m := 2 ^ k) hk
    (filledTo_cleared k .master base (2 ^ k) total) (by omega) (by omega)
  rw [Nat.zero_add] at hrfilled htfilled
  have hremaining := hrfilled.remaining
  rw [Nat.zero_add] at hremaining
  refine ⟨rvq.vring, tvq.vring, ?_, hrfilled.filled, htfilled.filled, ?_, htfilled.desc⟩
  · have hfirst : fillVring (virtqueueFillAvailBuffers (2 ^ k)) base total (2 ^ k)
        ⟨.cleared, 0, total⟩ = some rvq := hrvq
    have hsecond : fillVring (virtqueueFillUsedBuffers (2 ^ k)) base total (2 ^ k)
        ⟨.cleared, 0, rvq.shMemRemaining⟩ = some tvq := hremaining ▸ htvq
    rw [if_neg (by omega), min_eq_left (by omega), hfirst, Option.bind_eq_bind, Option.bind_some,
      hsecond]
    rfl
  · simpa using hrfilled.desc

lemma rpmsgLiteMasterInit_eq_none {n addr length : ℕ} (hover : rlVringOverhead ≤ length)
    (hend : addr + length < 2 ^ 32)
    (hfit : ¬ (addr ≠ 0 ∧ rlVringOverhead + 2 * n * rlBufferSize ≤ length)) :
    rpmsgLiteMasterInit n addr length = none := by
  by_cases hnull : addr = 0
  · simp only [rpmsgLiteMasterInit, if_pos hnull]
  have hfit : ¬ rlVringOverhead + 2 * n * rlBufferSize ≤ length := fun h => hfit ⟨hnull, h⟩
  have hlength : (length + 2 ^ 32 - rlVringOverhead) % 2 ^ 32 = length - rlVringOverhead := by
    omega
  have htotal : 2 * n > rlWordAlignDown (length - rlVringOverhead) / rlBufferSize := by
    rw [rlWordAlignDown_div]
    exact (Nat.div_lt_iff_lt_mul (by decide)).mpr (by omega)
  simp only [rpmsgLiteMasterInit, hlength, if_neg hnull, if_pos htotal]

/-! ### The layout -/

/-- The buffers of a vring lie between its first and its last one. -/
lemma mem_buffers {n base first : ℕ} {desc : ℕ → ℕ}
    (h : ∀ i < n, desc i = base + rlBufferSize * (first + i)) {part : ℕ × ℕ}
    (hmem : part ∈ (List.range n).map fun i => (desc i, rlBufferSize)) :
    base + rlBufferSize * first ≤ part.1 ∧
      part.1 + part.2 ≤ base + rlBufferSize * (first + n) := by
  obtain ⟨i, hi, rfl⟩ := List.mem_map.mp hmem
  have hi := List.mem_range.mp hi
  dsimp only
  rw [h i hi, rlBufferSize, rlBufferPayloadSize, rpmsgStdHdrSize]
  omega

lemma vringSize_le {n : ℕ} (hn : n ≤ 32) :
    vringSize n platformVringAlign ≤ platformVringSize := by
  have halign : platformVringAlign = 2 ^ 4 := rfl
  rw [vringSize, halign, alignUp_two_pow (by omega), platformVringSize]
  omega

/-- The parts of a vring are disjoint and lie in the memory of the vring. -/
lemma vringParts {n p : ℕ} (hp : p % platformVringAlign = 0) (hn : n ≤ 32)
    (hend : p + platformVringSize ≤ 2 ^ 32) {parts : List (ℕ × ℕ)}
    (hparts : parts = [((vringInit n p platformVringAlign).desc, n * 16),
      ((vringInit n p platformVringAlign).avail, 4 + n * 2),
      ((vringInit n p platformVringAlign).used, 4 + n * 8)]) :
    parts.Pairwise (fun a b => a.1 + a.2 ≤ b.1) ∧
      ∀ part ∈ parts, p ≤ part.1 ∧ part.1 + part.2 ≤ p + platformVringSize := by
  have hsize := vringSize_le hn
  obtain ⟨hused, hlast⟩ := vringInit_parts hp (by omega) ((Nat.add_le_add_left hsize p).trans hend)
  have hdesc : (vringInit n p platformVringAlign).desc = p := rfl
  have havail : (vringInit n p platformVringAlign).avail = p + n * 16 := rfl
  subst hparts
  rw [hdesc, havail]
  generalize (vringInit n p platformVringAlign).used = used at hused hlast
  constructor
  · simp only [List.pairwise_cons, List.mem_cons, List.not_mem_nil, or_false, forall_eq_or_imp,
      forall_eq, List.Pairwise.nil, IsEmpty.forall_iff, implies_true, and_true]
    omega
  · simp only [List.mem_cons, List.not_mem_nil, or_false, forall_eq_or_imp, forall_eq]
    omega

/-- Where the address is not NULL and two buffers for each slot fit behind the vrings, the master
sets both vrings up, with parts that follow one another within the shared memory; elsewhere it
fails. -/
theorem rpmsgLiteMasterInit_layout {k addr length : ℕ} (hk : k ≤ 5)
    (haddr : addr % platformVringAlign = 0) (hover : rlVringOverhead ≤ length)
    (hend : addr + length < 2 ^ 32) :
    if addr ≠ 0 ∧ rlVringOverhead + 2 * 2 ^ k * rlBufferSize ≤ length then
      ∃ rvq tvq, rpmsgLiteMasterInit (2 ^ k) addr length = some (rvq, tvq) ∧
        rvq.Filled k .remote ∧ tvq.Filled k .master ∧
        (sharedParts (2 ^ k) addr (rvq, tvq)).Pairwise (fun a b => a.1 + a.2 ≤ b.1) ∧
        ∀ part ∈ sharedParts (2 ^ k) addr (rvq, tvq),
          addr ≤ part.1 ∧ part.1 + part.2 ≤ addr + length
    else rpmsgLiteMasterInit (2 ^ k) addr length = none := by
  have hoverhead : rlVringOverhead = 2 * platformVringSize := rfl
  split_ifs with hfit
  · obtain ⟨rvq, tvq, hinit, hrvq, htvq, hrdesc, htdesc⟩ :=
      rpmsgLiteMasterInit_eq (Nat.lt_of_le_of_lt hk (by decide)) hover hend hfit
    refine ⟨rvq, tvq, hinit, hrvq, htvq, ?_⟩
    have hn : 2 ^ k ≤ 32 := Nat.pow_le_pow_right (by decide) hk
    have hbase : rlWordAlignUp (addr + rlVringOverhead) = addr + rlVringOverhead := by
      simp only [platformVringAlign, platformVringSize] at haddr hoverhead
      rw [rlWordAlignUp, if_neg (by omega)]
    rw [hbase] at hrdesc htdesc
    have hrdesc : ∀ i < 2 ^ k, rvq.desc i = addr + rlVringOverhead + rlBufferSize * (0 + i) := by
      simpa using hrdesc
    have haddr' : (addr + platformVringSize) % platformVringAlign = 0 := by
      simp only [platformVringAlign, platformVringSize] at haddr ⊢
      omega
    obtain ⟨hfirst, hfirst'⟩ := vringParts haddr hn (by omega) rfl
    obtain ⟨hsecond, hsecond'⟩ := vringParts haddr' hn (by omega) rfl
    have hend' : addr + rlVringOverhead + rlBufferSize * (2 ^ k + 2 ^ k) ≤ addr + length := by
      rw [Nat.mul_comm rlBufferSize, ← Nat.two_mul]
      omega
    simp only [sharedParts, List.pairwise_append, List.mem_append]
    refine ⟨⟨⟨hfirst, hsecond, fun a ha b hb => ?_⟩, ⟨pairwise_buffers hrdesc,
      pairwise_buffers htdesc, fun a ha b hb => ?_⟩, fun a ha b hb => ?_⟩, fun part hpart => ?_⟩
    · exact (hfirst' a ha).2.trans (hsecond' b hb).1
    · have hlast := (mem_buffers hrdesc ha).2
      rw [Nat.zero_add] at hlast
      exact hlast.trans (mem_buffers htdesc hb).1
    · -- the vrings are below the buffers
      have hlast : a.1 + a.2 ≤ addr + rlVringOverhead := by
        rcases ha with ha | ha
        · exact (hfirst' a ha).2.trans (by omega)
        · exact (hsecond' a ha).2.trans (by omega)
      rcases hb with hb | hb
      · exact hlast.trans (le_of_add_le_left (mem_buffers hrdesc hb).1)
      · exact hlast.trans (le_of_add_le_left (mem_buffers htdesc hb).1)
    · rcases hpart with (hpart | hpart) | hpart | hpart
      · obtain ⟨hlo, hhi⟩ := hfirst' part hpart
        omega
      · obtain ⟨hlo, hhi⟩ := hsecond' part hpart
        omega
      · obtain ⟨hlo, hhi⟩ := mem_buffers hrdesc hpart
        rw [Nat.zero_add] at hhi
        have hle : rlBufferSize * 2 ^ k ≤ rlBufferSize * (2 ^ k + 2 ^ k) :=
          Nat.mul_le_mul_left _ (Nat.le_add_left ..)
        omega
      · obtain ⟨hlo, hhi⟩ := mem_buffers htdesc hpart
        exact ⟨by omega, hhi.trans hend'⟩
  · exact rpmsgLiteMasterInit_eq_none hover hend hfit

/-- The shared memory of the linker scripts with the buffers of the configuration. -/
theorem rpmsgLiteMasterInit_layout_linker :
    ∃ rvq tvq, rpmsgLiteMasterInit (2 ^ 1) 0x20340000 0x2000 = some (rvq, tvq) ∧
      rvq.Filled 1 .remote ∧ tvq.Filled 1 .master ∧
      (sharedParts (2 ^ 1) 0x20340000 (rvq, tvq)).Pairwise (fun a b => a.1 + a.2 ≤ b.1) ∧
      ∀ part ∈ sharedParts (2 ^ 1) 0x20340000 (rvq, tvq),
        0x20340000 ≤ part.1 ∧ part.1 + part.2 ≤ 0x20340000 + 0x2000 := by
  have h := @rpmsgLiteMasterInit_layout 1 0x20340000 0x2000 (by decide) (by decide) (by decide)
    (by decide)
  rwa [if_pos (by decide)] at h

end VioFrontend
