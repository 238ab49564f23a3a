import VioFrontend.Multicore.Basic

/-!
# The exchange of the startup data

The multicore manager passes the 32-bit startup data of the slave through two registers of 32 bits,
one for each direction: the slave asks for one half after the other, and each of its words is
answered in the interrupt handler of the other core. Both cores run the same handlers on contexts
of their own.

A test of a register and a write to it are steps of their own, and a handler runs to its end before
the thread of its core goes on. A wait that is not over is not a step. What a core does after its
`MCMGR_StartCore` or `MCMGR_GetStartupData` has returned is left out here.
-/

namespace VioFrontend

/-! ### Words -/

/-- `mcmgr_event_type_t`. -/
inductive EventType
  | remoteCoreUp | remoteCoreDown | remoteException | startupData | feedStartupData
  | remoteRPMsg | remoteApplication | freeRtosMessageBuffers
  deriving DecidableEq

def EventType.code : EventType → ℕ
  | .remoteCoreUp => 1
  | .remoteCoreDown => 2
  | .remoteException => 3
  | .startupData => 4
  | .feedStartupData => 5
  | .remoteRPMsg => 6
  | .remoteApplication => 7
  | .freeRtosMessageBuffers => 8

def EventType.ofCode? (code : ℕ) : Option EventType :=
  [remoteCoreUp, remoteCoreDown, remoteException, startupData, feedStartupData, remoteRPMsg,
    remoteApplication, freeRtosMessageBuffers].find? fun type => type.code = code

/-- The word of `MCMGR_TriggerEventCommon`. -/
def remoteData (type : EventType) (eventData : BitVec 16) : BitVec 32 :=
  BitVec.ofNat 32 type.code <<< 16 ||| eventData.setWidth 32

/-- `mcmgr_mu_channel_handler`, up to the callback of the event. -/
def receivedEvent (data : BitVec 32) : Option (EventType × BitVec 16) :=
  if data ≠ 0 then
    (EventType.ofCode? (data >>> 16).toNat).map fun type => (type, data.setWidth 16)
  else none

/-- `mcmgr_core_state_t`. -/
inductive CoreState
  | reset | gettingLow | gettingHigh | running
  deriving DecidableEq

def CoreState.code : CoreState → BitVec 16
  | .reset => 0
  | .gettingLow => 1
  | .gettingHigh => 2
  | .running => 3

def CoreState.ofCode? (code : BitVec 16) : Option CoreState :=
  [reset, gettingLow, gettingHigh, running].find? fun state => state.code = code

@[simp] lemma CoreState.ofCode?_code (state : CoreState) : ofCode? state.code = some state := by
  cases state <;> decide

lemma EventType.code_lt (type : EventType) : type.code < 2 ^ 16 := by cases type <;> decide

@[simp] lemma EventType.ofCode?_code (type : EventType) : ofCode? type.code = some type := by
  cases type <;> decide

lemma remoteData_eq_append (type : EventType) (eventData : BitVec 16) :
    remoteData type eventData = BitVec.ofNat 16 type.code ++ eventData := by
  apply BitVec.eq_of_getLsbD_eq
  intro i hi
  simp only [remoteData, BitVec.getLsbD_or, BitVec.getLsbD_shiftLeft, BitVec.getLsbD_setWidth,
    BitVec.getLsbD_append, BitVec.getLsbD_ofNat, hi, decide_true, Bool.true_and]
  rcases Nat.lt_or_ge i 16 with hlow | hhigh
  · simp [hlow]
  · have hlt : i - 16 < 16 := by omega
    simp [Nat.not_lt.mpr hhigh, BitVec.getLsbD_of_ge eventData i hhigh, hlt, Nat.lt_trans hlt]

/-- A word is decoded to the event it was made of. -/
@[simp] lemma receivedEvent_remoteData (type : EventType) (eventData : BitVec 16) :
    receivedEvent (remoteData type eventData) = some (type, eventData) := by
  have htoNat : (remoteData type eventData).toNat = type.code * 2 ^ 16 + eventData.toNat := by
    rw [remoteData_eq_append, BitVec.toNat_append, BitVec.toNat_ofNat,
      Nat.mod_eq_of_lt type.code_lt, ← Nat.shiftLeft_add_eq_or_of_lt eventData.isLt,
      Nat.shiftLeft_eq]
  have hdata := eventData.isLt
  have hne : remoteData type eventData ≠ 0 := by
    intro hzero
    rw [hzero] at htoNat
    cases type <;> simp [EventType.code] at htoNat <;> omega
  have htype : (remoteData type eventData >>> 16).toNat = type.code := by
    rw [BitVec.toNat_ushiftRight, htoNat, Nat.shiftRight_eq_div_pow]
    omega
  have heventData : (remoteData type eventData).setWidth 16 = eventData := by
    apply BitVec.eq_of_toNat_eq
    rw [BitVec.toNat_setWidth, htoNat]
    omega
  rw [receivedEvent, if_pos hne, htype, EventType.ofCode?_code, Option.map_some, heventData]

/-- The halves of the startup data make up the startup data. -/
lemma setWidth_or_shiftLeft (data : BitVec 32) :
    (data.setWidth 16).setWidth 32 ||| ((data >>> 16).setWidth 16).setWidth 32 <<< 16 = data := by
  apply BitVec.eq_of_getLsbD_eq
  intro i hi
  simp only [BitVec.getLsbD_or, BitVec.getLsbD_shiftLeft, BitVec.getLsbD_setWidth,
    BitVec.getLsbD_ushiftRight, hi, decide_true, Bool.true_and]
  rcases Nat.lt_or_ge i 16 with hlow | hhigh
  · simp [hlow, hi]
  · have hlt : i - 16 < 16 := by omega
    simp [Nat.not_lt.mpr hhigh, hlt, Nat.add_sub_cancel' hhigh, Nat.lt_trans hlt]

/-! ### The cores -/

/-- `mcmgr_core_context_t`. -/
structure CoreContext where
  state : CoreState
  startupData : BitVec 32
  deriving DecidableEq

/-- Where `MU_SendMsg` is: before it has found its register empty, and before the write. -/
inductive SendMsg
  | wait | write
  deriving DecidableEq

/-- What the interrupt handler of a core does; `after` is the state that the handler enters for the
other core when its word is sent. -/
inductive Isr
  | idle
  | send (pc : SendMsg) (word : BitVec 32) (after : Option CoreState)
  deriving DecidableEq

/-- A core as its multicore manager sees it: the contexts of this core and of the other one. -/
structure McmgrCore where
  own : CoreContext
  other : CoreContext
  /-- `MCMGR_Init` has registered the handlers and enabled the interrupt. -/
  enabled : Bool
  isr : Isr
  deriving DecidableEq

def McmgrCore.reset : McmgrCore := ⟨⟨.reset, 0⟩, ⟨.reset, 0⟩, false, .idle⟩

/-- `MCMGR_StartupDataEventHandler`. -/
def startupDataEventHandler (chunk : BitVec 16) (c : McmgrCore) : McmgrCore :=
  match c.own.state with
  | .gettingLow =>
    { c with
      own := ⟨.gettingHigh, chunk.setWidth 32⟩
      isr := .send .wait (remoteData .feedStartupData CoreState.gettingHigh.code) none }
  | .gettingHigh =>
    { c with
      own := ⟨.running, c.own.startupData ||| chunk.setWidth 32 <<< 16⟩
      isr := .send .wait (remoteData .feedStartupData CoreState.running.code) none }
  | .reset | .running => c

/-- `MCMGR_FeedStartupDataEventHandler`. -/
def feedStartupDataEventHandler (chunk : BitVec 16) (c : McmgrCore) : McmgrCore :=
  match CoreState.ofCode? chunk with
  | some .gettingLow =>
    let word := remoteData .startupData (c.other.startupData.setWidth 16)
    { c with isr := .send .wait word (some .gettingLow) }
  | some .gettingHigh =>
    let word := remoteData .startupData ((c.other.startupData >>> 16).setWidth 16)
    { c with isr := .send .wait word (some .gettingHigh) }
  | some .running => { c with other := { c.other with state := .running } }
  | _ => c

/-- The handler of a word; the other events have no callback yet. -/
def McmgrCore.handle (word : BitVec 32) (c : McmgrCore) : McmgrCore :=
  match receivedEvent word with
  | some (.startupData, chunk) => startupDataEventHandler chunk c
  | some (.feedStartupData, chunk) => feedStartupDataEventHandler chunk c
  | _ => c

/-- The two registers of the messaging unit, and how many words were overwritten in them. -/
structure Registers where
  toSlave : Option (BitVec 32)
  toMaster : Option (BitVec 32)
  overwritten : ℕ
  deriving DecidableEq

inductive Side
  | master | slave
  deriving DecidableEq

namespace Registers

/-- The register that a core writes. -/
def outbox (r : Registers) : Side → Option (BitVec 32)
  | .master => r.toSlave
  | .slave => r.toMaster

def inbox (r : Registers) : Side → Option (BitVec 32)
  | .master => r.toMaster
  | .slave => r.toSlave

def write (word : BitVec 32) (r : Registers) (side : Side) : Registers :=
  let overwritten := if (r.outbox side).isSome then r.overwritten + 1 else r.overwritten
  match side with
  | .master => { r with toSlave := some word, overwritten }
  | .slave => { r with toMaster := some word, overwritten }

def takeInbox (r : Registers) : Side → Registers
  | .master => { r with toMaster := none }
  | .slave => { r with toSlave := none }

end Registers

/-- The next step of the interrupt handler of a core. -/
def McmgrCore.isrStep (side : Side) (c : McmgrCore) (r : Registers) :
    Option (McmgrCore × Registers) :=
  match c.isr with
  | .idle =>
    match r.inbox side with
    | some word => if c.enabled then some (c.handle word, r.takeInbox side) else none
    | none => none
  | .send .wait word after =>
    if r.outbox side = none then some ({ c with isr := .send .write word after }, r) else none
  | .send .write word after =>
    let other := { c.other with state := after.getD c.other.state }
    some ({ c with other, isr := .idle }, r.write word side)

/-- The statements of the master up to the return of `MCMGR_StartCore`. -/
inductive MasterThread
  | earlyInit (pc : SendMsg) | init | startCore | waitForRunning | started
  deriving DecidableEq

/-- The statements of the slave up to the return of `MCMGR_GetStartupData`; `poll` is its repeated
call once the data has been asked for. -/
inductive SlaveThread
  | inReset | earlyInit (pc : SendMsg) | init | getStartupData | request (pc : SendMsg) | poll
  | got (startupData : BitVec 32)
  deriving DecidableEq

structure Exchange where
  master : MasterThread
  masterCore : McmgrCore
  slave : SlaveThread
  slaveCore : McmgrCore
  registers : Registers
  deriving DecidableEq

namespace Exchange

def start : Exchange where
  master := .earlyInit .wait
  masterCore := .reset
  slave := .inReset
  slaveCore := .reset
  registers := ⟨none, none, 0⟩

/-- The next step of the master's thread; `startupData` is the argument of `MCMGR_StartCore`. -/
def masterStep (startupData : BitVec 32) (s : Exchange) : Option Exchange :=
  match s.master with
  | .earlyInit .wait =>
    if s.registers.toSlave = none then some { s with master := .earlyInit .write } else none
  | .earlyInit .write =>
    let registers := s.registers.write (remoteData .remoteCoreUp 0) .master
    some { s with master := .init, registers }
  | .init =>
    some { s with master := .startCore, masterCore := { s.masterCore with enabled := true } }
  | .startCore =>
    let other := { s.masterCore.other with startupData }
    some { s with
      master := .waitForRunning
      masterCore := { s.masterCore with other }
      slave := .earlyInit .wait }
  | .waitForRunning =>
    if s.masterCore.other.state = .running then some { s with master := .started } else none
  | .started => none

/-- The next step of the slave's thread. -/
def slaveStep (s : Exchange) : Option Exchange :=
  match s.slave with
  | .inReset => none
  | .earlyInit .wait =>
    if s.registers.toMaster = none then some { s with slave := .earlyInit .write } else none
  | .earlyInit .write =>
    let registers := s.registers.write (remoteData .remoteCoreUp 0) .slave
    some { s with slave := .init, registers }
  | .init =>
    some { s with slave := .getStartupData, slaveCore := { s.slaveCore with enabled := true } }
  | .getStartupData =>
    if s.slaveCore.own.state = .reset then
      let own := { s.slaveCore.own with state := .gettingLow }
      some { s with slave := .request .wait, slaveCore := { s.slaveCore with own } }
    else some { s with slave := .poll }
  | .request .wait =>
    if s.registers.toMaster = none then some { s with slave := .request .write } else none
  | .request .write =>
    let word := remoteData .feedStartupData CoreState.gettingLow.code
    some { s with slave := .poll, registers := s.registers.write word .slave }
  | .poll =>
    if s.slaveCore.own.state = .running then
      some { s with slave := .got s.slaveCore.own.startupData }
    else none
  | .got _ => none

inductive Event
  | masterThread | masterIsr | slaveThread | slaveIsr
  deriving DecidableEq

def step (startupData : BitVec 32) : Event → Exchange → Option Exchange
  | .masterThread, s => if s.masterCore.isr = .idle then s.masterStep startupData else none
  | .slaveThread, s => if s.slaveCore.isr = .idle then s.slaveStep else none
  | .masterIsr, s =>
    (s.masterCore.isrStep .master s.registers).map fun (masterCore, registers) =>
      { s with masterCore, registers }
  | .slaveIsr, s =>
    (s.slaveCore.isrStep .slave s.registers).map fun (slaveCore, registers) =>
      { s with slaveCore, registers }

end Exchange

/-! ### The reachable states -/

/-- The slave asks for the low half first. -/
inductive Half
  | low | high
  deriving DecidableEq

namespace Half

def chunk (startupData : BitVec 32) : Half → BitVec 16
  | .low => startupData.setWidth 16
  | .high => (startupData >>> 16).setWidth 16

/-- The state in which a half is asked for, and the one after it has come. -/
def request : Half → CoreState
  | .low => .gettingLow
  | .high => .gettingHigh

def confirm : Half → CoreState
  | .low => .gettingHigh
  | .high => .running

/-- The state of the slave as the master knows it when it is asked for a half. -/
def known : Half → CoreState
  | .low => .reset
  | .high => .gettingLow

/-- What the slave has when it asks for a half, and when it has come. -/
def before (startupData : BitVec 32) : Half → BitVec 32
  | .low => 0
  | .high => (chunk startupData .low).setWidth 32

def after (startupData : BitVec 32) : Half → BitVec 32
  | .low => (chunk startupData .low).setWidth 32
  | .high => startupData

end Half

/-- How far the exchange has come since the slave has asked for the startup data. -/
inductive Phase
  | requested (half : Half) | answering (half : Half) (pc : SendMsg) | answered (half : Half)
  | confirming (half : Half) (pc : SendMsg) | confirmed | complete
  deriving DecidableEq

/-- How many steps of the handlers are left. -/
def Phase.remaining : Phase → ℕ
  | .requested .low => 13
  | .answering .low .wait => 12
  | .answering .low .write => 11
  | .answered .low => 10
  | .confirming .low .wait => 9
  | .confirming .low .write => 8
  | .requested .high => 7
  | .answering .high .wait => 6
  | .answering .high .write => 5
  | .answered .high => 4
  | .confirming .high .wait => 3
  | .confirming .high .write => 2
  | .confirmed => 1
  | .complete => 0

/-- The word that a core has sent when it started. -/
def coreUp (pending : Bool) : Option (BitVec 32) :=
  if pending then some (remoteData .remoteCoreUp 0) else none

namespace Exchange

/-! ### The boot of the two cores -/

/-- How far the startup data has come. -/
def startupData (s : Exchange) : StartupData :=
  if s.masterCore.other.state = .running then .confirmed
  else if s.slaveCore.own.state = .running then .received
  else
    match s.slave with
    | .poll => .requested
    | _ => .notRequested

/-- The cores of `Multicore.Basic` in the state of the exchange. -/
def cores (μ : Type) (s : Exchange) : Cores μ :=
  { Cores.reset μ with
    master :=
      match s.master with
      | .earlyInit _ | .init => .mcmgrInit
      | .startCore => .registerEvent
      | .waitForRunning => .waitForStartup
      | .started => .waitForLinkReady
    slave :=
      match s.slave with
      | .inReset => .inReset
      | .earlyInit _ | .init => .mcmgrInit
      | .getStartupData | .request _ | .poll => .getStartupData
      | .got _ => .remoteInit
    startupData := s.startupData
    eventCallback := s.master = .waitForRunning ∨ s.master = .started }

/-- The steps of the cores that a step of the exchange stands for; between `MCMGR_Init` and
`MCMGR_StartCore` the master registers its event and copies the image of the slave. -/
def labels (μ : Type) : Event → Exchange → List (Action μ)
  | .masterThread, s =>
    match s.master with
    | .init | .waitForRunning => [.master]
    | .startCore => [.master, .master, .master]
    | _ => []
  | .slaveThread, s =>
    match s.slave with
    | .init | .request .write | .poll => [.slave]
    | _ => []
  | .masterIsr, s =>
    let confirmation := remoteData .feedStartupData CoreState.running.code
    if s.masterCore.isr = .idle ∧ s.registers.toMaster = some confirmation then [.startupInterrupt]
    else []
  | .slaveIsr, s =>
    if s.slaveCore.isr = .idle ∧ s.slaveCore.own.state = .gettingHigh then [.startupInterrupt]
    else []

/-- The master once it has started the slave, and the slave once it takes interrupts. -/
def masterAt (startupData : BitVec 32) (known : CoreState) (isr : Isr) : McmgrCore :=
  ⟨⟨.reset, 0⟩, ⟨known, startupData⟩, true, isr⟩

def slaveAt (state : CoreState) (startupData : BitVec 32) (isr : Isr) : McmgrCore :=
  ⟨⟨state, startupData⟩, ⟨.reset, 0⟩, true, isr⟩

/-- The state in a phase; `up` is whether the slave has not taken the first word of the master. -/
def atPhase (startupData : BitVec 32) (up : Bool) (master : MasterThread) (slave : SlaveThread) :
    Phase → Exchange
  | .requested half =>
    ⟨master, masterAt startupData half.known .idle, slave,
      slaveAt half.request (half.before startupData) .idle,
      coreUp up, some (remoteData .feedStartupData half.request.code), 0⟩
  | .answering half pc =>
    let word := remoteData .startupData (half.chunk startupData)
    ⟨master, masterAt startupData half.known (.send pc word (some half.request)), slave,
      slaveAt half.request (half.before startupData) .idle, coreUp up, none, 0⟩
  | .answered half =>
    ⟨master, masterAt startupData half.request .idle, slave,
      slaveAt half.request (half.before startupData) .idle,
      some (remoteData .startupData (half.chunk startupData)), none, 0⟩
  | .confirming half pc =>
    let word := remoteData .feedStartupData half.confirm.code
    ⟨master, masterAt startupData half.request .idle, slave,
      slaveAt half.confirm (half.after startupData) (.send pc word none), none, none, 0⟩
  | .confirmed =>
    ⟨master, masterAt startupData .gettingHigh .idle, slave, slaveAt .running startupData .idle,
      none, some (remoteData .feedStartupData CoreState.running.code), 0⟩
  | .complete =>
    ⟨master, masterAt startupData .running .idle, slave, slaveAt .running startupData .idle,
      none, none, 0⟩

/-- The reachable states, with the number of steps that are left in them. -/
inductive Reached (startupData : BitVec 32) : ℕ → Exchange → Prop
  | masterWait : Reached startupData 27 start
  | masterWrite : Reached startupData 26 { start with master := .earlyInit .write }
  | masterInit : Reached startupData 25
      ⟨.init, .reset, .inReset, .reset, coreUp true, none, 0⟩
  | startCore : Reached startupData 24
      ⟨.startCore, masterAt 0 .reset .idle, .inReset, .reset, coreUp true, none, 0⟩
  | slaveWait : Reached startupData 23
      ⟨.waitForRunning, masterAt startupData .reset .idle, .earlyInit .wait, .reset, coreUp true,
        none, 0⟩
  | slaveWrite : Reached startupData 22
      ⟨.waitForRunning, masterAt startupData .reset .idle, .earlyInit .write, .reset, coreUp true,
        none, 0⟩
  | slaveInit (up : Bool) : Reached startupData (20 + up.toNat)
      ⟨.waitForRunning, masterAt startupData .reset .idle, .init, .reset, coreUp true,
        coreUp up, 0⟩
  | getStartupData (up up' : Bool) : Reached startupData (18 + up.toNat + up'.toNat)
      ⟨.waitForRunning, masterAt startupData .reset .idle, .getStartupData,
        slaveAt .reset 0 .idle, coreUp up, coreUp up', 0⟩
  | requestWait (up up' : Bool) : Reached startupData (17 + up.toNat + up'.toNat)
      ⟨.waitForRunning, masterAt startupData .reset .idle, .request .wait,
        slaveAt .gettingLow 0 .idle, coreUp up, coreUp up', 0⟩
  | requestWrite (up : Bool) : Reached startupData (16 + up.toNat)
      ⟨.waitForRunning, masterAt startupData .reset .idle, .request .write,
        slaveAt .gettingLow 0 .idle, coreUp up, none, 0⟩
  | exchange (phase : Phase) (up : Bool)
      (hup : up = true → phase = .requested .low ∨ phase = .answering .low .wait) :
      Reached startupData (phase.remaining + up.toNat + 2)
        (atPhase startupData up .waitForRunning .poll phase)
  | got (phase : Phase) (hphase : phase = .confirmed ∨ phase = .complete) :
      Reached startupData (phase.remaining + 1)
        (atPhase startupData false .waitForRunning (.got startupData) phase)
  | started : Reached startupData 1 (atPhase startupData false .started .poll .complete)
  | done : Reached startupData 0
      (atPhase startupData false .started (.got startupData) .complete)

variable {startupData : BitVec 32} {n : ℕ} {s s' : Exchange} {event : Event}

lemma handle_chunk (c : McmgrCore) (chunk : BitVec 16) :
    c.handle (remoteData .startupData chunk) = startupDataEventHandler chunk c := by
  simp only [McmgrCore.handle, receivedEvent_remoteData]

/-- The slave puts a half to what it has and confirms it. -/
lemma handle_half (half : Half) :
    (slaveAt half.request (half.before startupData) .idle).handle
        (remoteData .startupData (half.chunk startupData))
      = slaveAt half.confirm (half.after startupData)
        (.send .wait (remoteData .feedStartupData half.confirm.code) none) := by
  rw [handle_chunk]
  cases half with
  | low => rfl
  | high =>
    have hdata := setWidth_or_shiftLeft startupData
    simp only [startupDataEventHandler, slaveAt, Half.request, Half.before, Half.chunk,
      Half.confirm, Half.after, hdata]

/-- A step leaves one step less, and it is what it stands for in the boot of the cores. -/
def Advances (startupData : BitVec 32) (n : ℕ) (event : Event) (s s' : Exchange) : Prop :=
  ∃ m, n = m + 1 ∧ Reached startupData m s' ∧
    ∀ μ : Type, Runs.run Cores.step (labels μ event s) (s.cores μ) = some (s'.cores μ)

/-- Once the slave has asked, the first word of the master is taken before the master answers. -/
lemma exchange_step {phase : Phase} {up : Bool}
    (hup : up = true → phase = .requested .low ∨ phase = .answering .low .wait)
    (hstep : step startupData event (atPhase startupData up .waitForRunning .poll phase)
      = some s') :
    Advances startupData (phase.remaining + up.toNat + 2) event
      (atPhase startupData up .waitForRunning .poll phase) s' := by
  cases up with
  | true =>
    rcases hup rfl with rfl | rfl <;> cases event <;> cases hstep
    · exact ⟨_, rfl, .exchange (.answering .low .wait) true fun _ => Or.inr rfl, fun _ => rfl⟩
    · exact ⟨_, rfl, .exchange (.requested .low) false nofun, fun _ => rfl⟩
    · exact ⟨_, rfl, .exchange (.answering .low .wait) false nofun, fun _ => rfl⟩
  | false =>
    cases phase with
    | requested half =>
      cases half <;> cases event <;> cases hstep
      · exact ⟨_, rfl, .exchange (.answering .low .wait) false nofun, fun _ => rfl⟩
      · exact ⟨_, rfl, .exchange (.answering .high .wait) false nofun, fun _ => rfl⟩
    | answering half pc =>
      cases half <;> cases pc <;> cases event <;> cases hstep
      · exact ⟨_, rfl, .exchange (.answering .low .write) false nofun, fun _ => rfl⟩
      · exact ⟨_, rfl, .exchange (.answered .low) false nofun, fun _ => rfl⟩
      · exact ⟨_, rfl, .exchange (.answering .high .write) false nofun, fun _ => rfl⟩
      · exact ⟨_, rfl, .exchange (.answered .high) false nofun, fun _ => rfl⟩
    | answered half =>
      cases event with
      | masterThread | masterIsr | slaveThread => cases half <;> cases hstep
      | slaveIsr =>
        have hs : Exchange.step startupData .slaveIsr
            (atPhase startupData false .waitForRunning .poll (.answered half))
              = some ⟨.waitForRunning, masterAt startupData half.request .idle, .poll,
                (slaveAt half.request (half.before startupData) .idle).handle
                  (remoteData .startupData (half.chunk startupData)), none, none, 0⟩ := rfl
        rw [handle_half] at hs
        cases hs.symm.trans hstep
        exact ⟨_, by cases half <;> rfl, .exchange (.confirming half .wait) false nofun,
          fun _ => by cases half <;> rfl⟩
    | confirming half pc =>
      cases half <;> cases pc <;> cases event <;> cases hstep
      · exact ⟨_, rfl, .exchange (.confirming .low .write) false nofun, fun _ => rfl⟩
      · exact ⟨_, rfl, .exchange (.requested .high) false nofun, fun _ => rfl⟩
      · exact ⟨_, rfl, .exchange (.confirming .high .write) false nofun, fun _ => rfl⟩
      · exact ⟨_, rfl, .exchange .confirmed false nofun, fun _ => rfl⟩
    | confirmed =>
      cases event <;> cases hstep
      · exact ⟨_, rfl, .exchange .complete false nofun, fun _ => rfl⟩
      · exact ⟨_, rfl, .got .confirmed (Or.inl rfl), fun _ => rfl⟩
    | complete =>
      cases event <;> cases hstep
      · exact ⟨_, rfl, .started, fun _ => rfl⟩
      · exact ⟨_, rfl, .got .complete (Or.inr rfl), fun _ => rfl⟩

lemma Reached.step (h : Reached startupData n s) (hstep : step startupData event s = some s') :
    Advances startupData n event s s' := by
  cases h with
  | masterWait =>
    cases event <;> cases hstep
    exact ⟨26, rfl, .masterWrite, fun _ => rfl⟩
  | masterWrite =>
    cases event <;> cases hstep
    exact ⟨25, rfl, .masterInit, fun _ => rfl⟩
  | masterInit =>
    cases event <;> cases hstep
    exact ⟨24, rfl, .startCore, fun _ => rfl⟩
  | startCore =>
    cases event <;> cases hstep
    exact ⟨23, rfl, .slaveWait, fun _ => rfl⟩
  | slaveWait =>
    cases event <;> cases hstep
    exact ⟨22, rfl, .slaveWrite, fun _ => rfl⟩
  | slaveWrite =>
    cases event <;> cases hstep
    exact ⟨21, rfl, .slaveInit true, fun _ => rfl⟩
  | slaveInit up =>
    cases up <;> cases event <;> cases hstep
    · exact ⟨19, rfl, .getStartupData true false, fun _ => rfl⟩
    · exact ⟨20, rfl, .slaveInit false, fun _ => rfl⟩
    · exact ⟨20, rfl, .getStartupData true true, fun _ => rfl⟩
  | getStartupData up up' =>
    cases event with
    | masterThread => cases hstep
    | masterIsr =>
      cases up' <;> cases hstep
      exact ⟨_, rfl, .getStartupData up false, fun _ => rfl⟩
    | slaveThread =>
      cases hstep
      exact ⟨_, by omega, .requestWait up up', fun _ => rfl⟩
    | slaveIsr =>
      cases up <;> cases hstep
      refine ⟨_, ?_, .getStartupData false up', fun _ => rfl⟩
      simp only [Bool.toNat_true, Bool.toNat_false]
      omega
  | requestWait up up' =>
    cases event with
    | masterThread => cases hstep
    | masterIsr =>
      cases up' <;> cases hstep
      exact ⟨_, rfl, .requestWait up false, fun _ => rfl⟩
    | slaveThread =>
      cases up' <;> cases hstep
      exact ⟨_, by simp only [Bool.toNat_false]; omega, .requestWrite up, fun _ => rfl⟩
    | slaveIsr =>
      cases up <;> cases hstep
      refine ⟨_, ?_, .requestWait false up', fun _ => rfl⟩
      simp only [Bool.toNat_true, Bool.toNat_false]
      omega
  | requestWrite up =>
    cases event with
    | masterThread | masterIsr => cases hstep
    | slaveThread =>
      cases hstep
      refine ⟨_, ?_, .exchange (.requested .low) up fun _ => Or.inl rfl, fun _ => rfl⟩
      rw [Phase.remaining]
      omega
    | slaveIsr =>
      cases up <;> cases hstep
      exact ⟨16, rfl, .requestWrite false, fun _ => rfl⟩
  | exchange phase up hup => exact exchange_step hup hstep
  | got phase hphase =>
    rcases hphase with rfl | rfl <;> cases event <;> cases hstep
    · exact ⟨1, rfl, .got .complete (Or.inr rfl), fun _ => rfl⟩
    · exact ⟨0, rfl, .done, fun _ => rfl⟩
  | started =>
    cases event <;> cases hstep
    exact ⟨0, rfl, .done, fun _ => rfl⟩
  | done => cases event <;> cases hstep

/-- No core waits for ever: as long as steps are left, one of them is possible. -/
lemma Reached.exists_step (h : Reached startupData n s) (hn : n ≠ 0) :
    ∃ event s', Exchange.step startupData event s = some s' := by
  cases h with
  | masterWait | masterWrite | masterInit | startCore => exact ⟨.masterThread, _, rfl⟩
  | slaveWait | slaveWrite | slaveInit | getStartupData | requestWrite =>
    exact ⟨.slaveThread, _, rfl⟩
  | requestWait up up' =>
    cases up' with
    | true => exact ⟨.masterIsr, _, rfl⟩
    | false => exact ⟨.slaveThread, _, rfl⟩
  | exchange phase up hup =>
    cases phase with
    | requested half => cases half <;> exact ⟨.masterIsr, _, rfl⟩
    | answering half pc =>
      cases up with
      | true =>
        rcases hup rfl with hphase | hphase <;> cases hphase
        exact ⟨.slaveIsr, _, rfl⟩
      | false => cases half <;> cases pc <;> exact ⟨.masterIsr, _, rfl⟩
    | answered half => exact ⟨.slaveIsr, _, rfl⟩
    | confirming half pc => cases half <;> cases pc <;> exact ⟨.slaveIsr, _, rfl⟩
    | confirmed => exact ⟨.masterIsr, _, rfl⟩
    | complete => exact ⟨.masterThread, _, rfl⟩
  | got phase hphase =>
    rcases hphase with rfl | rfl
    · exact ⟨.masterIsr, _, rfl⟩
    · exact ⟨.masterThread, _, rfl⟩
  | started => exact ⟨.slaveThread, _, rfl⟩
  | done => exact absurd rfl hn

lemma Reached.run {events : List Event} (h : Reached startupData n s)
    (hrun : Runs.run (Exchange.step startupData) events s = some s') :
    ∃ m, n = events.length + m ∧ Reached startupData m s' := by
  induction events generalizing n s with
  | nil =>
    obtain rfl := Option.some.inj hrun
    exact ⟨n, (Nat.zero_add n).symm, h⟩
  | cons event events ih =>
    rw [Runs.run_cons] at hrun
    obtain ⟨r, hr, hrun⟩ := Option.bind_eq_some_iff.mp hrun
    obtain ⟨m, rfl, hreached, -⟩ := h.step hr
    obtain ⟨l, rfl, hreached'⟩ := ih hreached hrun
    exact ⟨l, by rw [List.length_cons]; omega, hreached'⟩

lemma Reached.eq_of_zero (h : Reached startupData n s) (hn : n = 0) :
    s = atPhase startupData false .started (.got startupData) .complete := by
  cases h with
  | done => rfl
  | _ => omega

/-- What the exchange guarantees in every state. -/
structure Faithful (startupData : BitVec 32) (s : Exchange) : Prop where
  overwritten : s.registers.overwritten = 0
  got : ∀ value, s.slave = .got value → value = startupData
  started : s.master = .started → s.slaveCore.own = ⟨.running, startupData⟩

lemma Reached.faithful (h : Reached startupData n s) : s.Faithful startupData := by
  cases h with
  | exchange phase up hup => cases phase <;> exact ⟨rfl, nofun, nofun⟩
  | got phase hphase =>
    rcases hphase with rfl | rfl <;>
      exact ⟨rfl, fun value hvalue => (SlaveThread.got.inj hvalue).symm, nofun⟩
  | started => exact ⟨rfl, nofun, fun _ => rfl⟩
  | done => exact ⟨rfl, fun value hvalue => (SlaveThread.got.inj hvalue).symm, fun _ => rfl⟩
  | _ => exact ⟨rfl, nofun, nofun⟩

/-- In every interleaving of the threads and the interrupt handlers of both cores, no word is
overwritten in a register, the slave gets the startup data that the master has passed, and
`MCMGR_StartCore` returns only once the slave has it. Every interleaving takes 27 steps, and it is
only after the last of them that no step is possible. -/
theorem faithful_of_run {events : List Event}
    (hrun : Runs.run (Exchange.step startupData) events start = some s) :
    s.Faithful startupData ∧ events.length ≤ 27 ∧
      ((∀ event, Exchange.step startupData event s = none) ↔ events.length = 27) ∧
      (events.length = 27 → s.master = .started ∧ s.slave = .got startupData) := by
  obtain ⟨m, hm, hreached⟩ := Reached.masterWait.run hrun
  refine ⟨hreached.faithful, by omega, ⟨fun hstuck => ?_, fun hlength event => ?_⟩,
    fun hlength => ?_⟩
  · by_contra hlt
    obtain ⟨event, s', hs'⟩ := hreached.exists_step (by omega)
    rw [hstuck event] at hs'
    cases hs'
  · rw [hreached.eq_of_zero (by omega)]
    cases event <;> rfl
  · rw [hreached.eq_of_zero (by omega)]
    exact ⟨rfl, rfl⟩

/-- An interleaving in which the first words of both cores are taken late. -/
def lateInterleaving : List Event :=
  [.masterThread, .masterThread, .masterThread, .masterThread, .slaveThread, .slaveThread,
    .slaveThread, .slaveThread, .masterIsr, .slaveThread, .slaveThread, .masterIsr, .slaveIsr,
    .masterIsr, .masterIsr, .slaveIsr, .slaveIsr, .slaveIsr, .masterIsr, .masterIsr, .masterIsr,
    .slaveIsr, .slaveIsr, .slaveIsr, .slaveThread, .masterIsr, .masterThread]

theorem faithful_of_run_late :
    ∃ s, Runs.run (Exchange.step 0x20340000) lateInterleaving start = some s ∧
      s.Faithful 0x20340000 ∧ s.master = .started ∧ s.slave = .got 0x20340000 := by
  have hrun : Runs.run (Exchange.step 0x20340000) lateInterleaving start = some _ := rfl
  obtain ⟨hfaithful, -, -, hdone⟩ := faithful_of_run hrun
  exact ⟨_, hrun, hfaithful, hdone rfl⟩

/-- Every interleaving of the exchange is an interleaving of the boot of the cores, in which the
startup data is requested, received and confirmed in single steps. -/
theorem cores_of_run {μ : Type} {events : List Event}
    (hrun : Runs.run (Exchange.step startupData) events start = some s) :
    Runs.run Cores.step (Runs.trace (Exchange.step startupData) (labels μ) events start)
      (Cores.reset μ) = some (s.cores μ) := by
  have hstep : ∀ event (s s' : Exchange) c,
      (∃ n, Reached startupData n s) ∧ c = s.cores μ →
      Exchange.step startupData event s = some s' →
      ∃ c', Runs.run Cores.step (labels μ event s) c = some c' ∧
        (∃ n, Reached startupData n s') ∧ c' = s'.cores μ := by
    rintro event s s' c ⟨⟨n, hreached⟩, rfl⟩ hstep
    obtain ⟨m, -, hreached', hcores⟩ := hreached.step hstep
    exact ⟨_, hcores μ, ⟨m, hreached'⟩, rfl⟩
  have hstart : Cores.reset μ = start.cores μ := rfl
  obtain ⟨c, hc, -, rfl⟩ := Runs.run_trace hstep ⟨⟨27, .masterWait⟩, hstart⟩ hrun
  exact hc

theorem cores_of_run_late :
    ∃ s, Runs.run (Exchange.step 0x20340000) lateInterleaving start = some s ∧
      Runs.run Cores.step (Runs.trace (Exchange.step 0x20340000) (labels ℕ) lateInterleaving start)
        (Cores.reset ℕ) = some (s.cores ℕ) ∧ (s.cores ℕ).startupData = .confirmed := by
  have hrun : Runs.run (Exchange.step 0x20340000) lateInterleaving start = some _ := rfl
  exact ⟨_, hrun, cores_of_run hrun, rfl⟩

end Exchange

end VioFrontend
