import SerialPlatform.Saturating

/-!
# Shared protocol records

The records which clients, the port actor and the journal exchange.  A
`Uuid` is its 128-bit value.  Readings of the monotonic clock and durations
are natural numbers of nanoseconds, and a wall time is an `i64` of
nanoseconds.
-/

namespace SerialPlatform

/-- The 128-bit value of a UUID; `0` is the nil UUID. -/
abbrev Uuid := ℕ

abbrev Bytes := List UInt8

/-- `Duration::from_millis`. -/
def fromMillis (ms : ℕ) : ℕ := ms * 1000000

inductive ActorKind where
  | human
  | agent
  | script
  | system
  deriving DecidableEq

structure Actor where
  id : String
  label : String
  kind : ActorKind
  deriving DecidableEq

inductive ControlMode where
  | queue
  | takeover
  deriving DecidableEq

structure ControlLease where
  id : Uuid
  owner : Actor
  epoch : Uuid
  generation : ℕ
  fence : ℕ
  issuedWallTimeNs : ℤ
  expiresWallTimeNs : ℤ
  deriving DecidableEq

/-! ## Configuration -/

/-- Compact `serde_json` text of a JSON value supplied by a client. -/
abbrev JsonText := String

/-- A `BTreeMap<String, Value>` of client JSON, in key order. -/
abbrev JsonMap := List (String × JsonText)

inductive EchoMode where
  | on
  | off
  | auto
  deriving DecidableEq

inductive DataBits where
  | five
  | six
  | seven
  | eight
  deriving DecidableEq

inductive Parity where
  | none
  | odd
  | even
  deriving DecidableEq

inductive StopBits where
  | one
  | two
  deriving DecidableEq

inductive FlowControl where
  | none
  | software
  | hardware
  deriving DecidableEq

/-- The serial settings, less the probe configuration which nothing here reads. -/
structure SerialSettings where
  baudRate : ℕ := 115200
  dataBits : DataBits := .eight
  parity : Parity := .none
  stopBits : StopBits := .one
  flowControl : FlowControl := .none
  dtr : Bool := false
  rts : Bool := false
  writeEol : String := "\r"
  echo : EchoMode := .on
  shellPrompt : Option String := none
  ubootPrompt : Option String := none
  writeChunkSize : ℕ := 1
  writeChunkDelayMs : ℕ := 1
  autoOpen : Bool := true
  deriving DecidableEq

/-- Reusable physical UART configuration. -/
structure TransportProfile where
  name : String
  baudRate : ℕ
  dataBits : DataBits
  parity : Parity
  stopBits : StopBits
  flowControl : FlowControl
  dtr : Bool
  rts : Bool
  autoOpen : Bool
  deriving DecidableEq

structure ResolvedTransportSettings where
  baudRate : ℕ
  dataBits : DataBits
  parity : Parity
  stopBits : StopBits
  flowControl : FlowControl
  dtr : Bool
  rts : Bool
  autoOpen : Bool
  deriving DecidableEq

def resolveTransportSettings (settings : SerialSettings) :
    Option TransportProfile → ResolvedTransportSettings
  | some profile =>
      { baudRate := profile.baudRate
        dataBits := profile.dataBits
        parity := profile.parity
        stopBits := profile.stopBits
        flowControl := profile.flowControl
        dtr := profile.dtr
        rts := profile.rts
        autoOpen := profile.autoOpen }
  | none =>
      { baudRate := settings.baudRate
        dataBits := settings.dataBits
        parity := settings.parity
        stopBits := settings.stopBits
        flowControl := settings.flowControl
        dtr := settings.dtr
        rts := settings.rts
        autoOpen := settings.autoOpen }

/-- Applies only the physical UART fields. -/
def applyTransportProfile (settings : SerialSettings)
    (transportProfile : Option TransportProfile) : SerialSettings :=
  let resolved := resolveTransportSettings settings transportProfile
  { settings with
    baudRate := resolved.baudRate
    dataBits := resolved.dataBits
    parity := resolved.parity
    stopBits := resolved.stopBits
    flowControl := resolved.flowControl
    dtr := resolved.dtr
    rts := resolved.rts
    autoOpen := resolved.autoOpen }

structure WritePacing where
  chunkSize : ℕ
  chunkDelayMs : ℕ
  deriving DecidableEq

/-- An explicit per-request override wins over the port settings. -/
def WritePacing.resolve (overridePacing : Option WritePacing)
    (settings : SerialSettings) : WritePacing :=
  overridePacing.getD
    { chunkSize := settings.writeChunkSize, chunkDelayMs := settings.writeChunkDelayMs }

structure SlotConfig where
  port : String
  transportProfile : Option String
  modelProfile : Option String
  modelFamily : Option String
  modelName : Option String
  enabled : Bool
  deriving DecidableEq

/-- Reusable serial interaction behavior. -/
structure ModelProfile where
  name : String
  shellPrompt : Option String
  ubootPrompt : Option String
  writeEol : Option String
  echo : Option EchoMode
  writeChunkSize : Option ℕ
  writeChunkDelayMs : Option ℕ
  deriving DecidableEq

structure ResolvedModelSettings where
  shellPrompt : Option String
  ubootPrompt : Option String
  writeEol : String
  echo : EchoMode
  writePacing : WritePacing
  deriving DecidableEq

/-- A bound profile owns the prompts and any EOL, echo and pacing override. -/
def resolveModelSettings (settings : SerialSettings)
    (modelProfile : Option ModelProfile) : ResolvedModelSettings where
  shellPrompt :=
    match modelProfile with
    | some profile => profile.shellPrompt
    | none => settings.shellPrompt
  ubootPrompt :=
    match modelProfile with
    | some profile => profile.ubootPrompt
    | none => settings.ubootPrompt
  writeEol := (modelProfile.bind ModelProfile.writeEol).getD settings.writeEol
  echo := (modelProfile.bind ModelProfile.echo).getD settings.echo
  writePacing :=
    { chunkSize :=
        (modelProfile.bind ModelProfile.writeChunkSize).getD settings.writeChunkSize
      chunkDelayMs :=
        (modelProfile.bind ModelProfile.writeChunkDelayMs).getD settings.writeChunkDelayMs }

/-! ## Session state -/

inductive SessionState where
  | disabled
  | waitingForPort
  | opening
  | online
  | backoff
  | stopping
  deriving DecidableEq

inductive TargetActivity where
  | unknown
  | active
  | silent
  deriving DecidableEq

inductive LoggingState where
  | healthy
  | degraded
  deriving DecidableEq

inductive ErrorCode where
  | badRequest
  | notFound
  | conflict
  | controlRequired
  | staleFence
  | portOffline
  | cursorAhead
  | sequenceBoundaryChanged
  | userReadRequired
  | writeOutcomeUncertain
  | resourceExhausted
  | idempotencyExpired
  | configRevisionMismatch
  | profileChangeBusy
  | portNotFound
  | portBusy
  | portAccessDenied
  | portIo
  | breakUnsupported
  | regexInvalid
  | queryBudgetExceeded
  | unavailable
  | internal
  deriving DecidableEq

/-! ## Runs and approvals -/

inductive RunStartDecision where
  | approve
  | deny
  deriving DecidableEq

/-- An Agent Run request awaiting the current Human holder's decision. -/
structure PendingRunStartApproval where
  id : Uuid
  port : String
  requester : Actor
  requiredApprover : Actor
  label : String
  metadata : JsonMap
  controlTtlMs : ℕ
  daemonEpoch : Uuid
  generation : ℕ
  expectedControlId : Uuid
  expectedFence : ℕ
  requestedWallTimeNs : ℤ
  expiresWallTimeNs : ℤ
  deriving DecidableEq

/-- The Human-intervention fence of one active Agent Run. -/
structure RunContextState where
  runId : Uuid
  revision : ℕ
  lastHumanCommandSeq : Option ℕ
  acknowledgedRevision : ℕ
  acknowledgedThroughSeq : Option ℕ
  deriving DecidableEq

inductive HumanCommandMode where
  | owned
  | cooperative
  deriving DecidableEq

inductive RunStatus where
  | active
  | completed
  | aborted
  deriving DecidableEq

structure RunInfo where
  id : Uuid
  owner : Actor
  label : String
  status : RunStatus
  startSeq : ℕ
  endSeq : Option ℕ
  metadata : JsonMap
  deriving DecidableEq

/-! ## Triggers -/

structure TriggerSpec where
  initialWrite : Option Bytes
  startContains : Option Bytes
  action : Bytes
  intervalMs : ℕ
  stopContains : List Bytes
  timeoutMs : ℕ
  maxFires : ℕ
  pacing : Option WritePacing
  deriving DecidableEq

inductive TriggerStatus where
  | armed
  | waitingForStart
  | running
  | stopping
  | matched
  | timedOut
  | maxFiresReached
  | cancelled
  | controlLost
  | runLost
  | generationChanged
  | portClosed
  | writeFailed
  | rxGap
  deriving DecidableEq

def TriggerStatus.isTerminal : TriggerStatus → Bool
  | .armed | .waitingForStart | .running | .stopping => false
  | _ => true

structure TriggerInfo where
  id : Uuid
  owner : Actor
  daemonEpoch : Uuid
  generation : ℕ
  controlId : Uuid
  fence : ℕ
  operationId : Option Uuid
  expectedRunId : Option Uuid
  spec : TriggerSpec
  status : TriggerStatus
  startSeq : ℕ
  endSeq : Option ℕ
  lastWriteSeq : Option ℕ
  firesConfirmed : ℕ
  txBytesConfirmed : ℕ
  matchedPattern : Option Bytes

/-! ## Commands and captures -/

inductive CommandCaptureMatcherKind where
  | contains
  | regex
  | shellPrompt
  | ubootPrompt
  deriving DecidableEq

structure CommandCaptureMatcher where
  kind : CommandCaptureMatcherKind
  value : String
  deriving DecidableEq

structure CommandSequenceAuditContext where
  sequenceId : Uuid
  description : String
  stepIndex : ℕ
  stepCount : ℕ
  deriving DecidableEq

structure Cursor where
  epoch : Uuid
  afterSeq : ℕ
  deriving DecidableEq

structure SequenceWritePrecondition where
  cursor : Cursor
  expectedGeneration : ℕ
  expectedTxOffset : ℕ
  deriving DecidableEq

/-- The command text of one submitted Human LINE. -/
structure HumanLineInput where
  command : String
  deriving DecidableEq

inductive CommandCaptureCompletionKind where
  | literal
  | prompt
  | regex
  | quiet
  | signal
  | runAborted
  | timeout
  | disconnected
  deriving DecidableEq

inductive CommandCaptureConfidence where
  | high
  | medium
  | low
  | partialOutput
  | interfered
  | incomplete
  | unreliable
  deriving DecidableEq

structure CommandCaptureReport where
  daemonEpoch : Uuid
  generation : ℕ
  runId : Uuid
  operationId : Uuid
  txEventSeq : ℕ
  evidenceFromSeq : ℕ
  evidenceThroughSeq : ℕ
  completion : CommandCaptureCompletionKind
  completionDetail : Option String
  confidence : CommandCaptureConfidence
  deriving DecidableEq

/-- A daemon-validated command capture boundary. -/
structure CommandCaptureCompleted where
  daemonEpoch : Uuid
  generation : ℕ
  runId : Uuid
  operationId : Uuid
  txEventSeq : ℕ
  evidenceFromSeq : ℕ
  evidenceThroughSeq : ℕ
  completion : CommandCaptureCompletionKind
  completionDetail : Option String
  confidence : CommandCaptureConfidence
  recordEventSeq : ℕ
  txStreamOffsetStart : Option ℕ
  txStreamOffsetEnd : Option ℕ
  rxStreamOffsetStart : Option ℕ
  rxStreamOffsetEnd : Option ℕ

/-! ## Macros -/

inductive MacroStatus where
  | running
  | stopping
  | succeeded
  | timedOut
  | cancelled
  | interruptedByUser
  | failed
  deriving DecidableEq

def MacroStatus.isTerminal : MacroStatus → Bool
  | .running | .stopping => false
  | _ => true

structure MacroExecutionInfo where
  id : Uuid
  port : String
  daemonEpoch : Uuid
  generation : ℕ
  owner : Actor
  runId : Option Uuid
  macroId : Option String
  revision : Option ℕ
  description : String
  status : MacroStatus
  startedAtNs : ℤ
  completedAtNs : Option ℤ
  line : ℕ
  column : ℕ
  writes : ℕ
  inputVerifiedWrites : ℕ
  sendOnlyWrites : ℕ
  bytesWritten : ℕ
  firstSeq : ℕ
  throughSeq : ℕ
  message : Option String
  outcomeUncertain : Bool

/-! ## The timeline -/

inductive Direction where
  | rx
  | tx
  | none
  deriving DecidableEq

inductive EventKind where
  | rx
  | tx
  | serialOpening
  | serialOpened
  | serialOpenFailed
  | serialClosed
  | portReconfigured
  | portRemoved
  | controlGranted
  | controlReleased
  | controlRevoked
  | controlExpired
  | runStartRequested
  | runStartApproved
  | runStartDenied
  | runStartTimedOut
  | runStartCancelled
  | runStarted
  | runEnded
  | runAborted
  | triggerStarted
  | triggerCompleted
  | triggerCancelled
  | triggerFailed
  | commandCaptureCompleted
  | uartBreak
  | checkpoint
  | loggingDegraded
  | gap
  deriving DecidableEq

/-- A value of an event's metadata map: the record which the source encodes. -/
inductive MetaValue where
  | null
  | bool (value : Bool)
  | num (value : ℕ)
  | str (value : String)
  | uuid (value : Uuid)
  | bytes (value : Bytes)
  | names (value : List String)
  | actor (value : Actor)
  | lease (value : ControlLease)
  | approval (value : PendingRunStartApproval)
  | run (value : RunInfo)
  | trigger (value : TriggerInfo)
  | triggerStatus (value : TriggerStatus)
  | matchers (value : List CommandCaptureMatcher)
  | capture (value : CommandCaptureCompleted)
  | execution (value : MacroExecutionInfo)
  | config (value : SlotConfig)
  | model (value : ResolvedModelSettings)
  | transport (value : ResolvedTransportSettings)
  | errorCode (value : ErrorCode)

abbrev Metadata := List (String × MetaValue)

/-- `json!` of an optional value. -/
def MetaValue.ofOption {α : Type} (encode : α → MetaValue) : Option α → MetaValue
  | some value => encode value
  | none => .null

structure TimelineEvent where
  port : String
  daemonEpoch : Uuid
  seq : ℕ
  generation : ℕ
  wallTimeNs : ℤ
  monotonicTimeNs : ℕ
  kind : EventKind
  direction : Direction
  actor : Option Actor
  runId : Option Uuid
  operationId : Option Uuid
  streamOffsetStart : Option ℕ
  streamOffsetEnd : Option ℕ
  data : Bytes
  metadata : Metadata
  durable : Bool

end SerialPlatform
