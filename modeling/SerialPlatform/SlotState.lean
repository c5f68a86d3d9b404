import SerialPlatform.PortReader

/-!
# The state of a port actor

One actor owns one port.  Everything outside of it (the clocks, the journal, the
driver, the two port workers and the macro virtual machine) answers through an
endless supply of `Answer`s, one for each question which the actor asks.  The
trace records, in order, what the actor did to the world.
-/

namespace SerialPlatform

/-! ## The world outside -/

/-- How the journal acknowledges one appended event. -/
inductive JournalAck where
  | durable
  | failed (error : String)
  /-- not within the acknowledgement timeout, but later -/
  | late (result : Except String Unit)

inductive JournalAnswer where
  | refused (error : String)
  /-- `permit` says that the acknowledgement tracker has room -/
  | accepted (ack : JournalAck) (permit : Bool)

structure PortOpenError where
  code : ErrorCode
  message : String

structure Answer where
  /-- nanoseconds since the previous answer -/
  elapsed : ℕ
  wall : ℤ
  uuid : Uuid
  eventSize : ℕ
  journal : JournalAnswer
  /-- the port queue takes a command -/
  send : QueueAnswer
  writer : List WriterPoll
  /-- `none` is a writer which stopped without an answer -/
  breaking : Option BreakPolls
  /-- a queued value is found, or the port event is chosen first -/
  ready : Bool
  endpointPresent : Bool
  opened : Except PortOpenError PortSession
  /-- how starting the virtual machine of a macro fails -/
  macroStart : Option String
  /-- the audit record of a macro start fits -/
  macroRecordFits : Bool
  macroDriverGone : Bool

structure World where
  answers : ℕ → Answer
  asked : ℕ
  clock : ℕ

/-! ## Triggers -/

inductive TriggerWriteKind where
  | initial
  | action (fireIndex : ℕ)
  deriving DecidableEq

structure TriggerWriteResult where
  triggerId : Uuid
  kind : TriggerWriteKind
  data : Bytes
  outcome : Except String PortWriteOutcome

structure LiteralMatcher where
  patterns : List Bytes
  tail : Bytes
  maximumPatternLen : ℕ

structure TriggerRxAuditBuffer where
  events : List PortEvent := []
  bytes : ℕ := 0
  droppedBytes : ℕ := 0

structure ActiveTrigger where
  info : TriggerInfo
  boundRunId : Option Uuid
  deadline : ℕ
  nextWriteAt : Option ℕ
  initialPending : Bool
  startSeen : Bool
  startMatcher : Option LiteralMatcher
  stopMatcher : LiteralMatcher
  writeInFlight : Option TriggerWriteKind
  bufferedRx : TriggerRxAuditBuffer
  pendingTerminal : Option (TriggerStatus × Option Bytes)

/-! ## Macros -/

structure MacroStop where
  status : MacroStatus
  message : String

structure ActiveMacro where
  info : MacroExecutionInfo
  controlId : Uuid
  fence : ℕ
  deadline : ℕ
  stop : Option MacroStop

/-! ## Ports -/

structure PortWorker where
  /-- what the reader will hand back when it is joined -/
  tail : ReaderTail
  /-- the event channel ended, so both workers are gone -/
  stopped : Bool

inductive PendingReconfiguration where
  | add (source : String)
  | replace (config : SlotConfig) (transportProfile : Option TransportProfile)
      (modelProfile : Option ModelProfile) (source : String)
      (resumeOnRollback reopened : Bool)
  | remove (source : String)
  | modelProfile (modelProfile : Option ModelProfile)

structure PendingRunStartState where
  approval : PendingRunStartApproval
  deadline : ℕ
  requesterFingerprint : Fingerprint

/-! ## Tables -/

/-- A hash map. -/
abbrev Table (κ α : Type) := κ → Option α

def Table.insert {κ α : Type} [DecidableEq κ] (table : Table κ α) (key : κ)
    (value : α) : Table κ α :=
  Function.update table key (some value)

def Table.remove {κ α : Type} [DecidableEq κ] (table : Table κ α) (key : κ) :
    Table κ α :=
  Function.update table key none

structure CachedResult (φ : Type) where
  fingerprint : φ
  result : SlotResult

structure ExecutedWriteIds where
  ids : Finset Uuid
  limit : ℕ

/-! ## The trace -/

/-- On whose behalf a physical action reached the port. -/
inductive Origin where
  | request (requestId : Uuid)
  | trigger (triggerId : Uuid) (kind : TriggerWriteKind)
  | macroStep (macroId : Uuid)
  deriving DecidableEq

inductive Effect where
  | event (event : TimelineEvent)
  | portOpened (session : PortSession)
  | portWrite (origin : Origin) (actor : Actor) (data : Bytes) (run : WriterRun)
      (checkedAt : ℕ)
  | portBreak (origin : Origin) (actor : Actor) (outcome : Option PortBreakOutcome)
  | triggerArmed (origin : Origin) (trigger : ActiveTrigger)
  | triggerMarked (triggerId : Uuid) (status : TriggerStatus)
      (matchedPattern : Option Bytes)
  /-- the result of the write in flight came back -/
  | triggerWriteSettled (triggerId : Uuid) (kind : TriggerWriteKind)
  | contextAcknowledged (runId : Uuid) (revision throughSeq : ℕ)
  | reply (key : String × Uuid) (result : SlotResult)
  | macroReply (result : SlotResult)
  | adminReply (result : Except SlotError Bool)

/-! ## The actor -/

inductive JournalAckOutcome where
  | durable
  | failed (error : String)
  | timedOut

/-- The results which one forwarding task still delivers. -/
structure PendingAck where
  seq : ℕ
  outcomes : List JournalAckOutcome

structure Timeline where
  seq : ℕ
  rxOffset : ℕ
  txOffset : ℕ
  ring : EventRing
  logging : LoggingState
  journalHealthSeq : ℕ
  /-- acknowledgements which are observed out of band -/
  pendingAcks : List PendingAck

structure PortState where
  generation : ℕ
  endpointPresent : Bool
  sessionState : SessionState
  stateReason : Option String
  stateCode : Option ErrorCode
  targetActivity : TargetActivity
  lastRxWallTimeNs : Option ℤ
  lastRxInstant : Option ℕ
  rxOverflowBytes : ℕ
  port : Option PortWorker
  /-- the events which the workers still deliver, in order -/
  portEvents : Option (List PortEvent)
  administrativelyPaused : Bool
  retryAt : ℕ
  retryDelay : ℕ

structure Authority where
  control : ControlState
  pendingRunStart : Option PendingRunStartState
  activeRun : Option RunInfo
  runContext : Option RunContextState

structure TriggerState where
  activeTrigger : Option ActiveTrigger
  /-- results which the forwarding tasks still deliver -/
  writeResults : List TriggerWriteResult
  arming : Bool
  terminalTriggers : Table Uuid TriggerInfo
  terminalOrder : List Uuid

structure MacroState where
  activeMacro : Option ActiveMacro
  writeAuthorized : Option Uuid
  terminalMacros : Table Uuid MacroExecutionInfo
  terminalOrder : List Uuid

structure RequestCaches where
  requestCache : Table (String × Uuid) (CachedResult Fingerprint)
  requestOrder : List (String × Uuid)
  writeRequestCache : Table Uuid (CachedResult WriteFingerprint)
  writeRequestOrder : List Uuid
  executedWriteIds : ExecutedWriteIds

/-- What watchers see of a port. -/
structure SlotSnapshot where
  config : SlotConfig
  daemonEpoch : Uuid
  headSeq : ℕ
  ringOldestSeq : Option ℕ
  generation : ℕ
  endpointPresent : Bool
  sessionState : SessionState
  stateReason : Option String
  stateCode : Option ErrorCode
  targetActivity : TargetActivity
  lastRxWallTimeNs : Option ℤ
  rxOffset : ℕ
  txOffset : ℕ
  rxOverflowBytes : ℕ
  control : Option ControlLease
  pendingRunStart : Option PendingRunStartApproval
  activeRun : Option RunInfo
  runContext : Option RunContextState
  activeTrigger : Option TriggerInfo
  logging : LoggingState
  effectiveShellPrompt : Option String
  effectiveUbootPrompt : Option String
  effectiveWriteEol : Option String
  effectiveEcho : Option EchoMode
  effectiveTransport : Option ResolvedTransportSettings
  effectiveWritePacing : Option WritePacing

structure SlotActor where
  config : SlotConfig
  transportProfile : Option TransportProfile
  modelProfile : Option ModelProfile
  pendingReconfiguration : Option PendingReconfiguration
  daemonEpoch : Uuid
  daemonStarted : ℕ
  world : World
  timeline : Timeline
  port : PortState
  authority : Authority
  trigger : TriggerState
  macros : MacroState
  caches : RequestCaches
  published : SlotSnapshot
  trace : List Effect

/-! ## Constants -/

def portEventQueue : ℕ := 4096
def commandQueue : ℕ := 256
def ringEvents : ℕ := 20000
def ringBytes : ℕ := 4 * 1024 * 1024
def maxTriggerBufferedRxBytes : ℕ := 1024 * 1024
def maxWriteBytes : ℕ := 4 * 1024
def maxLabelBytes : ℕ := 256
def maxRunMetadataBytes : ℕ := 16 * 1024
def maxRunMetadataKeys : ℕ := 64
def idempotencyEntries : ℕ := 2048
def writeIdempotencyHistoryEntries : ℕ := 262144
def activeWindow : ℕ := fromMillis 5000
def openBackoffMin : ℕ := fromMillis 500
def openBackoffMax : ℕ := fromMillis 10000
def terminalTriggerHistory : ℕ := 128
def terminalMacroHistory : ℕ := 128

def systemActor : Actor :=
  { id := "system:seriald", label := "seriald", kind := .system }

def deviceActor : Actor :=
  { id := "device", label := "device", kind := .system }

def initialSnapshot (config : SlotConfig) (transportProfile : Option TransportProfile)
    (modelProfile : Option ModelProfile) (daemonEpoch : Uuid) (staged : Bool) :
    SlotSnapshot :=
  let transport := resolveTransportSettings {} transportProfile
  let resolved := resolveModelSettings {} modelProfile
  { config := config
    daemonEpoch := daemonEpoch
    headSeq := 0
    ringOldestSeq := none
    generation := 0
    endpointPresent := false
    sessionState :=
      if staged then .disabled
      else if config.enabled && transport.autoOpen then .waitingForPort
      else .disabled
    stateReason := if staged then some "port configuration pending persistence" else none
    stateCode := none
    targetActivity := .unknown
    lastRxWallTimeNs := none
    rxOffset := 0
    txOffset := 0
    rxOverflowBytes := 0
    control := none
    pendingRunStart := none
    activeRun := none
    runContext := none
    activeTrigger := none
    logging := .healthy
    effectiveShellPrompt := resolved.shellPrompt
    effectiveUbootPrompt := resolved.ubootPrompt
    effectiveWriteEol := some resolved.writeEol
    effectiveEcho := some resolved.echo
    effectiveTransport := some transport
    effectiveWritePacing := some resolved.writePacing }

namespace SlotActor

/-- The state in which the actor of a port starts.  A staged actor waits for its
configuration to be persisted. -/
def spawn (config : SlotConfig) (transportProfile : Option TransportProfile)
    (modelProfile : Option ModelProfile) (limits : ControlLimits) (instantMax : ℕ)
    (daemonEpoch : Uuid) (daemonStarted : ℕ) (world : World)
    (stagedSource : Option String) : SlotActor where
  config := config
  transportProfile := transportProfile
  modelProfile := modelProfile
  pendingReconfiguration := stagedSource.map .add
  daemonEpoch := daemonEpoch
  daemonStarted := daemonStarted
  world := world
  timeline :=
    { seq := 0
      rxOffset := 0
      txOffset := 0
      ring := EventRing.new ringEvents ringBytes
      logging := .healthy
      journalHealthSeq := 0
      pendingAcks := [] }
  port :=
    { generation := 0
      endpointPresent := false
      sessionState := if stagedSource.isSome then .disabled else .waitingForPort
      stateReason := stagedSource.map fun _ => "port configuration pending persistence"
      stateCode := none
      targetActivity := .unknown
      lastRxWallTimeNs := none
      lastRxInstant := none
      rxOverflowBytes := 0
      port := none
      portEvents := none
      administrativelyPaused := stagedSource.isSome
      retryAt := world.clock
      retryDelay := openBackoffMin }
  authority :=
    { control := ControlState.new daemonEpoch 0 limits instantMax
      pendingRunStart := none
      activeRun := none
      runContext := none }
  trigger :=
    { activeTrigger := none
      writeResults := []
      arming := false
      terminalTriggers := fun _ => none
      terminalOrder := [] }
  macros :=
    { activeMacro := none
      writeAuthorized := none
      terminalMacros := fun _ => none
      terminalOrder := [] }
  caches :=
    { requestCache := fun _ => none
      requestOrder := []
      writeRequestCache := fun _ => none
      writeRequestOrder := []
      executedWriteIds := { ids := ∅, limit := writeIdempotencyHistoryEntries } }
  published :=
    initialSnapshot config transportProfile modelProfile daemonEpoch stagedSource.isSome
  trace := []

/-! ## Questions to the world -/

/-- Asks the next question; time passes until it is answered. -/
def ask (s : SlotActor) : SlotActor :=
  { s with
    world.asked := s.world.asked + 1
    world.clock := s.world.clock + (s.world.answers (s.world.asked + 1)).elapsed }

/-- The answer to the last question. -/
def answer (s : SlotActor) : Answer := s.world.answers s.world.asked

/-- The monotonic clock at the last question. -/
def now (s : SlotActor) : ℕ := s.world.clock

def record (s : SlotActor) (effect : Effect) : SlotActor :=
  { s with trace := s.trace ++ [effect] }

def effectiveSerialSettings (s : SlotActor) : SerialSettings :=
  let effective := applyTransportProfile {} s.transportProfile
  let model := resolveModelSettings effective s.modelProfile
  { effective with
    writeChunkSize := model.writePacing.chunkSize
    writeChunkDelayMs := model.writePacing.chunkDelayMs }

/-- The resolved behaviour which the bound model profile gives the port. -/
def modelSettings (s : SlotActor) : ResolvedModelSettings :=
  resolveModelSettings {} s.modelProfile

def transportSettings (s : SlotActor) : ResolvedTransportSettings :=
  resolveTransportSettings {} s.transportProfile

def publishSnapshot (s : SlotActor) : SlotActor :=
  let resolved := s.modelSettings
  let effectiveSettings := s.effectiveSerialSettings
  { s with
    published := {
      config := s.config
      daemonEpoch := s.daemonEpoch
      headSeq := s.timeline.seq
      ringOldestSeq := s.timeline.ring.oldestSeq
      generation := s.port.generation
      endpointPresent := s.port.endpointPresent
      sessionState := s.port.sessionState
      stateReason := s.port.stateReason
      stateCode := s.port.stateCode
      targetActivity := s.port.targetActivity
      lastRxWallTimeNs := s.port.lastRxWallTimeNs
      rxOffset := s.timeline.rxOffset
      txOffset := s.timeline.txOffset
      rxOverflowBytes := s.port.rxOverflowBytes
      control := s.authority.control.currentLease
      pendingRunStart := s.authority.pendingRunStart.map PendingRunStartState.approval
      activeRun := s.authority.activeRun
      runContext := s.authority.runContext
      activeTrigger := s.trigger.activeTrigger.map ActiveTrigger.info
      logging := s.timeline.logging
      effectiveShellPrompt := resolved.shellPrompt
      effectiveUbootPrompt := resolved.ubootPrompt
      effectiveWriteEol := some resolved.writeEol
      effectiveEcho := some resolved.echo
      effectiveTransport := some s.transportSettings
      effectiveWritePacing := some {
        chunkSize := effectiveSettings.writeChunkSize
        chunkDelayMs := effectiveSettings.writeChunkDelayMs } } }

end SlotActor
end SerialPlatform
