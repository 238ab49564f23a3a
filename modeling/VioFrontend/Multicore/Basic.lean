import VioFrontend.Library.Mailbox
import VioFrontend.Library.Runs

/-!
# The two cores

The threads of both cores up to their main loops as program counters, and the interrupts, each a
step of its own, so a list of actions is an interleaving. A wait that is not over is a step that
changes nothing.

Events and kicks are delivered once and in order, and a buffer that has been sent is given to the
endpoint once, at any later message interrupt of the slave. A start-up that times out leaves
`initialise` without touching the link; when it does is the subject of `Multicore.Startup`.
-/

namespace VioFrontend

/-- The next statement of the master in `initialise`, and after it in `main`. -/
inductive MasterPc
  | mcmgrInit | registerEvent | copyImage | startCore | waitForStartup | waitForLinkReady
  | masterInit | kick | createEndpoint | waitForEndpointReady | registerMessageCallback | running
  deriving DecidableEq

/-- The next statement of the slave. -/
inductive SlavePc
  | inReset | mcmgrInit | getStartupData | remoteInit | triggerLinkReady | waitForLinkUp
  | createEndpoint | triggerEndpointReady | registerMessageCallback | running | timedOut
  deriving DecidableEq

/-- How far the startup data has come. -/
inductive StartupData
  | notRequested | requested | received | confirmed
  deriving DecidableEq

/-- What became of a buffer that the slave has taken from the ring: the message was handed to the
registered callback, or the buffer was released at the endpoint without one, or there was no
endpoint. -/
inductive Outcome
  | handed | released | noEndpoint
  deriving DecidableEq

def rpmsgLinkReady : ℕ := 1
def rpmsgEndpointReady : ℕ := 2

/-- `RL_BUFFER_COUNT`. -/
def rlBufferCount : ℕ := 2

/-- `sizeof(Message)`. -/
def messageSize : ℕ := 328

/-- Both cores and what is between them; `μ` is the type of the messages. -/
structure Cores (μ : Type) where
  master : MasterPc
  slave : SlavePc
  startupData : StartupData
  /-- The master's handler of application events is registered. -/
  eventCallback : Bool
  /-- `application_event_data`, and the application events in flight to the master. -/
  applicationEvents : Mailbox ℕ
  /-- The master has set up the rings. -/
  rings : Bool
  masterEndpoint : Bool
  /-- The slave's instance and its interrupt handlers are set up. -/
  remoteInit : Bool
  /-- Kicks of `rpmsg_lite_master_init` in flight to the slave. -/
  kicks : ℕ
  /-- The slave's `link_state`. -/
  linkUp : Bool
  /-- The slave's endpoint is in the list of endpoints. -/
  slaveEndpoint : Bool
  /-- The slave's `message_callback` is not null. -/
  messageCallback : Bool
  /-- Buffers in the ring to the slave. -/
  ring : List μ
  /-- The messages that the master has put into the ring. -/
  sent : List μ
  /-- The messages that the slave has taken from the ring. -/
  taken : List (μ × Outcome)
  deriving DecidableEq

/-- Both cores after a reset of the board. -/
def Cores.reset (μ : Type) : Cores μ where
  master := .mcmgrInit
  slave := .inReset
  startupData := .notRequested
  eventCallback := false
  applicationEvents := ⟨0, []⟩
  rings := false
  masterEndpoint := false
  remoteInit := false
  kicks := 0
  linkUp := false
  slaveEndpoint := false
  messageCallback := false
  ring := []
  sent := []
  taken := []

inductive Action (μ : Type)
  /-- A core executes its next statement. -/
  | master | slave
  /-- The slave gives up waiting for its startup data. -/
  | timeout
  /-- The core that the exchange of the startup data waits for takes its interrupt. -/
  | startupInterrupt
  /-- The master takes the interrupt of an application event. -/
  | eventInterrupt
  /-- The slave takes the interrupt of a kick. -/
  | kickInterrupt
  | send (message : μ)
  /-- The slave takes the interrupt of a message. -/
  | messageInterrupt
  deriving DecidableEq

namespace Cores

variable {μ : Type}

/-- The next statement of the master; in `running` it only sends. -/
def masterStep (s : Cores μ) : Option (Cores μ) :=
  match s.master with
  | .mcmgrInit => some { s with master := .registerEvent }
  | .registerEvent => some { s with master := .copyImage, eventCallback := true }
  | .copyImage => some { s with master := .startCore }
  | .startCore => some { s with master := .waitForStartup, slave := .mcmgrInit }
  | .waitForStartup =>
    if s.startupData = .confirmed then some { s with master := .waitForLinkReady } else some s
  | .waitForLinkReady =>
    if s.applicationEvents.cell = rpmsgLinkReady then some { s with master := .masterInit }
    else some s
  | .masterInit => some { s with master := .kick, rings := true }
  | .kick => some { s with master := .createEndpoint, kicks := s.kicks + 1 }
  | .createEndpoint => some { s with master := .waitForEndpointReady, masterEndpoint := true }
  | .waitForEndpointReady =>
    if s.applicationEvents.cell = rpmsgEndpointReady then
      some { s with master := .registerMessageCallback }
    else some s
  | .registerMessageCallback => some { s with master := .running }
  | .running => none

/-- The next statement of the slave; in `running` it waits for a message. A slave whose start-up
has timed out still registers its message callback. -/
def slaveStep (s : Cores μ) : Option (Cores μ) :=
  match s.slave with
  | .inReset => none
  | .mcmgrInit => some { s with slave := .getStartupData }
  | .getStartupData =>
    match s.startupData with
    | .notRequested => some { s with startupData := .requested }
    | .requested => some s
    | .received | .confirmed => some { s with slave := .remoteInit }
  | .remoteInit => some { s with slave := .triggerLinkReady, remoteInit := true }
  | .triggerLinkReady =>
    let applicationEvents := s.applicationEvents.post rpmsgLinkReady
    some { s with slave := .waitForLinkUp, applicationEvents }
  | .waitForLinkUp => if s.linkUp then some { s with slave := .createEndpoint } else some s
  | .createEndpoint => some { s with slave := .triggerEndpointReady, slaveEndpoint := true }
  | .triggerEndpointReady =>
    let applicationEvents := s.applicationEvents.post rpmsgEndpointReady
    some { s with slave := .registerMessageCallback, applicationEvents }
  | .registerMessageCallback => some { s with slave := .running, messageCallback := true }
  | .running => none
  | .timedOut => some { s with messageCallback := true }

/-- `endpoint_callback`, when there is an endpoint. -/
def endpointCallback (payloadLength : ℕ) (s : Cores μ) : Outcome :=
  if s.slaveEndpoint then
    if payloadLength ≤ messageSize ∧ s.messageCallback = true then .handed else .released
  else .noEndpoint

/-- `send_message` of the master; without a free buffer the message is not sent. -/
def sendMessage (message : μ) (s : Cores μ) : Cores μ :=
  if s.masterEndpoint = true ∧ s.ring.length < rlBufferCount then
    { s with ring := s.ring ++ [message], sent := s.sent ++ [message] }
  else s

def step : Action μ → Cores μ → Option (Cores μ)
  | .master, s => s.masterStep
  | .slave, s => s.slaveStep
  | .timeout, s => if s.slave = .getStartupData then some { s with slave := .timedOut } else none
  | .startupInterrupt, s =>
    match s.startupData with
    | .requested => some { s with startupData := .received }
    | .received => some { s with startupData := .confirmed }
    | _ => none
  | .eventInterrupt, s =>
    if s.eventCallback then do
      let applicationEvents ← s.applicationEvents.deliver
      return { s with applicationEvents }
    else
      let applicationEvents : Mailbox ℕ :=
        ⟨s.applicationEvents.cell, s.applicationEvents.inFlight.tail⟩
      some { s with applicationEvents }
  | .kickInterrupt, s =>
    match s.kicks with
    | 0 => none
    | kicks + 1 =>
      -- a kick that comes before the handler is registered is lost
      if s.remoteInit then some { s with kicks, linkUp := true } else some { s with kicks }
  | .send message, s => if s.master = .running then some (s.sendMessage message) else none
  | .messageInterrupt, s =>
    match s.ring with
    | [] => none
    | message :: ring =>
      -- every message is sent with its full size
      if s.remoteInit then
        some { s with ring, taken := s.taken ++ [(message, s.endpointCallback messageSize)] }
      else none

end Cores

end VioFrontend
