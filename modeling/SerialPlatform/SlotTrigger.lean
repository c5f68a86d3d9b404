import SerialPlatform.SlotChecks
import SerialPlatform.SlotTimeline

/-!
# The Trigger of a port

A port has at most one Trigger.  It writes its action on a schedule, watches RX
for its patterns and stops for the most important of the reasons which were
marked; it ends once no write of it is in flight.
-/

namespace SerialPlatform

/-- The largest `u32`. -/
def u32Max : ℕ := 2 ^ 32 - 1

/-! ## Matching -/

def containsBytes (haystack needle : Bytes) : Bool :=
  needle ≠ [] && needle <:+: haystack

namespace LiteralMatcher

def new (patterns : List Bytes) : LiteralMatcher where
  patterns := patterns
  tail := []
  maximumPatternLen := (patterns.map List.length).foldl max 0

def push (matcher : LiteralMatcher) (data : Bytes) : LiteralMatcher × Option Bytes :=
  if matcher.patterns = [] then
    (matcher, none)
  else
    let window := matcher.tail ++ data
    let tailLen := min (matcher.maximumPatternLen - 1) window.length
    ({ matcher with tail := window.drop (window.length - tailLen) },
      matcher.patterns.find? fun pattern => containsBytes window pattern)

end LiteralMatcher

/-! ## RX while a write is in flight -/

namespace TriggerRxAuditBuffer

/-- Buffers one chunk, or counts it; says whether it was counted. -/
def pushRxWithLimit (buffer : TriggerRxAuditBuffer) (data : Bytes) (limit : ℕ) :
    TriggerRxAuditBuffer × Bool :=
  if buffer.droppedBytes = 0 ∧ buffer.bytes + data.length ≤ limit then
    ({ buffer with
        bytes := buffer.bytes + data.length
        events := buffer.events ++ [.rx data] }, false)
  else
    ({ buffer with droppedBytes := satAdd u64Max buffer.droppedBytes data.length }, true)

def pushRx (buffer : TriggerRxAuditBuffer) (data : Bytes) :
    TriggerRxAuditBuffer × Bool :=
  buffer.pushRxWithLimit data maxTriggerBufferedRxBytes

def addGap (buffer : TriggerRxAuditBuffer) (droppedBytes : ℕ) : TriggerRxAuditBuffer :=
  { buffer with droppedBytes := satAdd u64Max buffer.droppedBytes droppedBytes }

end TriggerRxAuditBuffer

/-! ## The schedule of one Trigger -/

namespace ActiveTrigger

def nextDeadline (trigger : ActiveTrigger) : Option ℕ :=
  if trigger.pendingTerminal.isSome then
    none
  else
    match trigger.nextWriteAt, trigger.writeInFlight with
    | some write, none => some (min write trigger.deadline)
    | _, _ => some trigger.deadline

/-- Feeds the matchers; the first literal of `stop_contains` which is found. -/
def observeRx (trigger : ActiveTrigger) (data : Bytes) (now : ℕ) :
    ActiveTrigger × Option Bytes :=
  let stop := trigger.stopMatcher.push data
  let trigger := { trigger with stopMatcher := stop.1 }
  match stop.2 with
  | some matched => (trigger, some matched)
  | none =>
      match trigger.startSeen, trigger.startMatcher with
      | false, some matcher =>
          let start := matcher.push data
          if start.2.isSome then
            let trigger := { trigger with startSeen := true, startMatcher := none }
            if !trigger.initialPending && trigger.pendingTerminal.isNone then
              ({ trigger with info.status := .running, nextWriteAt := some now }, none)
            else
              (trigger, none)
          else
            ({ trigger with startMatcher := some start.1 }, none)
      | _, _ => (trigger, none)

def deadlineStatus (trigger : ActiveTrigger) : TriggerStatus :=
  if trigger.info.spec.maxFires ≤ trigger.info.firesConfirmed then
    .maxFiresReached
  else
    .timedOut

/-- Completes the kickoff phase without inventing an RX start gate. -/
def confirmInitialWrite (trigger : ActiveTrigger) (now : ℕ) : ActiveTrigger :=
  let trigger := { trigger with initialPending := false }
  if trigger.pendingTerminal.isSome then
    trigger
  else if trigger.startSeen then
    { trigger with info.status := .running, nextWriteAt := some now }
  else
    { trigger with info.status := .waitingForStart, nextWriteAt := none }

/-- Records one confirmed action write.  Reaching the send budget is terminal
only when no stop pattern can still match. -/
def confirmActionWrite (trigger : ActiveTrigger) (now : ℕ) :
    ActiveTrigger × Option TriggerStatus :=
  let trigger :=
    { trigger with info.firesConfirmed := satAdd u32Max trigger.info.firesConfirmed 1 }
  if trigger.info.firesConfirmed < trigger.info.spec.maxFires then
    if trigger.pendingTerminal.isNone then
      ({ trigger with
          nextWriteAt := some (now + fromMillis trigger.info.spec.intervalMs) }, none)
    else
      (trigger, none)
  else
    ({ trigger with nextWriteAt := none },
      if trigger.info.spec.stopContains = [] then some .maxFiresReached else none)

/-- The schedule after a full write. -/
def confirmWrite (trigger : ActiveTrigger) (kind : TriggerWriteKind) (now : ℕ) :
    ActiveTrigger × Option TriggerStatus :=
  match kind with
  | .initial => (trigger.confirmInitialWrite now, none)
  | .action _ => trigger.confirmActionWrite now

/-- The audit counters after bytes reached the wire. -/
def recordTx (trigger : ActiveTrigger) (eventSeq written : ℕ) : ActiveTrigger :=
  { trigger with
    info.lastWriteSeq := some eventSeq
    info.txBytesConfirmed := satAdd u64Max trigger.info.txBytesConfirmed written }

end ActiveTrigger

def triggerWriteDueAt (now deadline : ℕ) (nextWriteAt : Option ℕ)
    (stopping writeInFlight : Bool) : Bool :=
  !stopping && !writeInFlight && now < deadline && nextWriteAt.any (· ≤ now)

def triggerTerminalPriority : TriggerStatus → ℕ
  | .rxGap => 100
  | .writeFailed | .portClosed | .generationChanged => 90
  | .controlLost | .runLost => 80
  | .matched => 70
  | .cancelled => 60
  | .timedOut => 20
  | .maxFiresReached => 10
  | .armed | .waitingForStart | .running | .stopping => 0

/-- A reason replaces another one of strictly lower priority only. -/
def ActiveTrigger.markStopping (trigger : ActiveTrigger) (status : TriggerStatus)
    (matchedPattern : Option Bytes) : ActiveTrigger :=
  let replace := trigger.pendingTerminal.all fun current =>
    triggerTerminalPriority current.1 < triggerTerminalPriority status
  { trigger with
    pendingTerminal :=
      if replace then some (status, matchedPattern) else trigger.pendingTerminal
    info.status := .stopping
    nextWriteAt := none }

def triggerEventMetadata (info : TriggerInfo) : Metadata :=
  [("trigger_id", .uuid info.id),
    ("status", .triggerStatus info.status),
    ("fires_confirmed", .num info.firesConfirmed),
    ("tx_bytes_confirmed", .num info.txBytesConfirmed),
    ("trigger", .trigger info)] ++
  match info.matchedPattern with
  | some pattern => [("matched_pattern_base64", .bytes pattern)]
  | none => []

/-- The event which announces the end of a Trigger. -/
def triggerTerminalKind : TriggerStatus → EventKind
  | .matched | .timedOut | .maxFiresReached => .triggerCompleted
  | .cancelled => .triggerCancelled
  | _ => .triggerFailed

/-- The record of an ended Trigger. -/
def ActiveTrigger.finalInfo (trigger : ActiveTrigger) (status : TriggerStatus)
    (matchedPattern : Option Bytes) (endSeq : ℕ) : TriggerInfo :=
  { trigger.info with
    status := status
    matchedPattern := matchedPattern
    endSeq := some endSeq }

namespace SlotActor

def setTrigger (s : SlotActor) (trigger : ActiveTrigger) : SlotActor :=
  { s with trigger.activeTrigger := some trigger }

/-! ## Stopping -/

def markTriggerStopping (status : TriggerStatus) (matchedPattern : Option Bytes)
    (s : SlotActor) : SlotActor :=
  match s.trigger.activeTrigger with
  | none => s
  | some trigger =>
      (s.setTrigger (trigger.markStopping status matchedPattern)).record
        (.triggerMarked trigger.info.id status matchedPattern)

/-- Retires a terminal Trigger into the bounded history. -/
def retireTrigger (info : TriggerInfo) (s : SlotActor) : SlotActor :=
  let order := s.trigger.terminalOrder ++ [info.id]
  let triggers := s.trigger.terminalTriggers.insert info.id info
  let excess := order.length - terminalTriggerHistory
  { s with
    trigger.terminalOrder := order.drop excess
    trigger.terminalTriggers := (order.take excess).foldl Table.remove triggers }

/-- Emits the terminal event of the Trigger which was taken. -/
def finishTrigger (trigger : ActiveTrigger) (status : TriggerStatus)
    (matchedPattern : Option Bytes) (s : SlotActor) : SlotActor :=
  let s := { s with trigger.activeTrigger := none }
  let info := trigger.finalInfo status matchedPattern s.nextSeq
  let s := s.emitInner (triggerTerminalKind status) .none [] (some info.owner)
    info.operationId trigger.boundRunId (triggerEventMetadata info)
  (s.retireTrigger info).publishSnapshot

def finishStoppedTriggerIfIdle (s : SlotActor) : SlotActor :=
  match s.trigger.activeTrigger with
  | none => s
  | some trigger =>
      match trigger.writeInFlight, trigger.pendingTerminal with
      | none, some (status, matchedPattern) =>
          s.finishTrigger trigger status matchedPattern
      | _, _ => s

def triggerWriteInFlight (s : SlotActor) : Bool :=
  s.trigger.activeTrigger.any fun trigger => trigger.writeInFlight.isSome

def requestTriggerStop (status : TriggerStatus) (matchedPattern : Option Bytes)
    (s : SlotActor) : SlotActor :=
  let s := s.markTriggerStopping status matchedPattern
  if s.triggerWriteInFlight then
    s.publishSnapshot
  else
    s.finishStoppedTriggerIfIdle

/-! ## Writing -/

/-- What a due Trigger wants to write. -/
inductive TriggerWritePlan where
  | stop (status : TriggerStatus)
  | wait
  | exhausted
  | write (kind : TriggerWriteKind) (data : Bytes)

end SlotActor

def ActiveTrigger.writePlan (trigger : ActiveTrigger) : SlotActor.TriggerWritePlan :=
  if trigger.initialPending then
    match trigger.info.spec.initialWrite with
    | none => .stop .writeFailed
    | some data => .write .initial data
  else if !trigger.startSeen then
    .wait
  else if trigger.info.spec.maxFires ≤ trigger.info.firesConfirmed then
    if trigger.info.spec.stopContains = [] then .stop .maxFiresReached else .exhausted
  else
    .write (.action (satAdd u32Max trigger.info.firesConfirmed 1)) trigger.info.spec.action

/-- The Trigger once its write was handed to the port. -/
def ActiveTrigger.writeHanded (trigger : ActiveTrigger) (kind : TriggerWriteKind) :
    ActiveTrigger :=
  let trigger := { trigger with writeInFlight := some kind, nextWriteAt := none }
  match kind with
  | .initial => trigger
  | .action _ => { trigger with info.status := .running }

namespace SlotActor

def uncertainTriggerWriteMessage : String :=
  "serial writer stopped before confirming the Trigger write; the physical outcome is uncertain"

/-- What the writer does with a command which it took from its queue. -/
def writerRun (worker : PortWorker) (data : Bytes) (pacing : WritePacing)
    (s : SlotActor) : WriterRun :=
  if worker.stopped then
    { accepted := [], outcome := none }
  else
    writeWithPacing data pacing s.answer.writer

/-- The answer which a forwarding task delivers for one write. -/
def triggerWriteAnswer (run : WriterRun) : Except String PortWriteOutcome :=
  match run.outcome with
  | some outcome => .ok outcome
  | none => .error uncertainTriggerWriteMessage

/-- Spawns the task which delivers the result of a write. -/
def forwardTriggerWriteResult (result : TriggerWriteResult) (s : SlotActor) : SlotActor :=
  { s with trigger.writeResults := s.trigger.writeResults ++ [result] }

/-- The final checks and the enqueue of a Trigger write. -/
def enqueueTriggerWrite (trigger : ActiveTrigger) (kind : TriggerWriteKind)
    (data : Bytes) (pacing : WritePacing) (s : SlotActor) : SlotActor :=
  let s := s.ask
  if trigger.deadline ≤ s.now then
    s.requestTriggerStop trigger.deadlineStatus none
  else
    match s.port.port with
    | none => s.requestTriggerStop .portClosed none
    | some worker =>
        match s.answer.send with
        | .closed => s.requestTriggerStop .portClosed none
        | .full => s.requestTriggerStop .writeFailed none
        | .sent =>
            let run := s.writerRun worker data pacing
            let s := s.record
              (.portWrite (.trigger trigger.info.id kind) trigger.info.owner data run s.now)
            let s := s.setTrigger (trigger.writeHanded kind)
            (s.forwardTriggerWriteResult {
              triggerId := trigger.info.id
              kind := kind
              data := data
              outcome := triggerWriteAnswer run }).publishSnapshot

/-- Budget and lease of a Trigger write. -/
def authorizeTriggerWrite (trigger : ActiveTrigger) (kind : TriggerWriteKind)
    (data : Bytes) (s : SlotActor) : SlotActor :=
  let pacing := WritePacing.resolve trigger.info.spec.pacing s.effectiveSerialSettings
  match writeDeadline data.length pacing.chunkSize pacing.chunkDelayMs with
  | .error _ => s.requestTriggerStop .writeFailed none
  | .ok writeTimeout =>
      let s := s.ask
      match s.authority.control.remainingTtl trigger.info.owner.id trigger.info.controlId
          trigger.info.fence s.now with
      | .error _ => s.requestTriggerStop .controlLost none
      | .ok leaseRemaining =>
          match ensureLeaseCoversWrite leaseRemaining writeTimeout with
          | .error _ => s.requestTriggerStop .controlLost none
          | .ok () => s.enqueueTriggerWrite trigger kind data pacing

/-- Identity, port, lease and Run of a due Trigger. -/
def checkTriggerWrite (trigger : ActiveTrigger) (s : SlotActor) : SlotActor :=
  if trigger.info.daemonEpoch ≠ s.daemonEpoch ∨
      trigger.info.generation ≠ s.port.generation then
    s.requestTriggerStop .generationChanged none
  else if s.port.port.isNone then
    s.requestTriggerStop .portClosed none
  else
    let s := s.ask
    match s.authority.control.validate trigger.info.owner.id trigger.info.controlId
        trigger.info.fence s.now with
    | .error _ => s.requestTriggerStop .controlLost none
    | .ok _ =>
        match validateExpectedWriteRun trigger.info.expectedRunId trigger.info.owner
            s.authority.activeRun with
        | .error _ => s.requestTriggerStop .runLost none
        | .ok () =>
            match trigger.writePlan with
            | .stop status => s.requestTriggerStop status none
            | .wait => s
            | .exhausted => s.setTrigger { trigger with nextWriteAt := none }
            | .write kind data => s.authorizeTriggerWrite trigger kind data

def beginTriggerWrite (s : SlotActor) : SlotActor :=
  let s := s.ask
  match s.trigger.activeTrigger with
  | none => s
  | some trigger =>
      if trigger.deadline ≤ s.now then
        s.requestTriggerStop trigger.deadlineStatus none
      else
        let s := s.ask
        if trigger.pendingTerminal.isSome || trigger.writeInFlight.isSome ||
            !trigger.nextWriteAt.any (· ≤ s.now) then
          s
        else
          s.checkTriggerWrite trigger

/-! ## Results -/

/-- The confirmed bytes and the error of one Trigger write. -/
def triggerWriteReport : Except String PortWriteOutcome → ℕ × Option String
  | .error error => (0, some error)
  | .ok outcome =>
      (outcome.written,
        match outcome.error with
        | some error => some error
        | none =>
            if outcome.cancelled then
              some "Trigger write was cancelled while the port was closing"
            else
              none)

def triggerTxMetadata (trigger : ActiveTrigger) (result : TriggerWriteResult)
    (written : ℕ) : Metadata :=
  [("partial", .bool (written ≠ result.data.length)),
    ("trigger_id", .uuid trigger.info.id)] ++
  match result.kind with
  | .initial => [("trigger_write_kind", .str "initial")]
  | .action fireIndex =>
      [("trigger_write_kind", .str "action"), ("fire_index", .num fireIndex)]

/-- Emits the TX event of a Trigger write which put bytes on the wire. -/
def emitTriggerTx (trigger : ActiveTrigger) (result : TriggerWriteResult)
    (written : ℕ) (s : SlotActor) : SlotActor :=
  if 0 < written then
    let eventSeq := s.nextSeq
    let s := s.emitInner .tx .tx (result.data.take written) (some trigger.info.owner)
      trigger.info.operationId trigger.boundRunId
      (triggerTxMetadata trigger result written)
    s.setTrigger (trigger.recordTx eventSeq written)
  else
    s

/-- Advances the schedule after a full write. -/
def confirmTriggerWrite (kind : TriggerWriteKind) (s : SlotActor) : SlotActor :=
  let s := s.ask
  match s.trigger.activeTrigger with
  | none => s
  | some trigger =>
      let confirmed := trigger.confirmWrite kind s.now
      let s := s.setTrigger confirmed.1
      match confirmed.2 with
      | some status => s.markTriggerStopping status none
      | none => s

def queueOverflowMetadata (droppedBytes : ℕ) : Metadata :=
  [("reason", .str "serial receive queue overflow"), ("dropped_bytes", .num droppedBytes)]

/-- Counts lost bytes and tells about them. -/
def emitGap (runId : Option Uuid) (droppedBytes : ℕ) (metadata : Metadata)
    (s : SlotActor) : SlotActor :=
  { s with
    timeline.rxOffset := satAdd u64Max s.timeline.rxOffset droppedBytes }.emitInner
    .gap .none [] (some systemActor) none runId metadata

def emitBufferedEvent (runId : Option Uuid) (s : SlotActor) : PortEvent → SlotActor
  | .rx data => s.emitInner .rx .rx data (some deviceActor) none runId []
  | .overflow droppedBytes =>
      s.emitGap runId droppedBytes (queueOverflowMetadata droppedBytes)
  | .closed _ _ => s
  | .readerBarrier _ => s

/-- Emits what arrived while the write was in flight. -/
def flushBufferedRx (s : SlotActor) : SlotActor :=
  match s.trigger.activeTrigger with
  | none => s
  | some trigger =>
      let runId := trigger.boundRunId
      let droppedBytes := trigger.bufferedRx.droppedBytes
      let s := s.setTrigger { trigger with bufferedRx := {} }
      let s := trigger.bufferedRx.events.foldl (emitBufferedEvent runId) s
      if 0 < droppedBytes then
        s.emitGap runId droppedBytes
          [("reason", .str "Trigger RX audit buffer exceeded its bounded capacity"),
            ("dropped_bytes", .num droppedBytes)]
      else
        s

/-- The result of the write which is in flight. -/
def acceptTriggerWriteResult (trigger : ActiveTrigger) (result : TriggerWriteResult)
    (s : SlotActor) : SlotActor :=
  let trigger := { trigger with writeInFlight := none }
  let s := (s.setTrigger trigger).record
    (.triggerWriteSettled trigger.info.id result.kind)
  let report := triggerWriteReport result.outcome
  let s := s.emitTriggerTx trigger result report.1
  let s :=
    if report.1 = result.data.length ∧ report.2 = none then
      s.confirmTriggerWrite result.kind
    else
      s.markTriggerStopping .writeFailed none
  s.flushBufferedRx.finishStoppedTriggerIfIdle.publishSnapshot

def handleTriggerWriteResult (result : TriggerWriteResult) (s : SlotActor) : SlotActor :=
  match s.trigger.activeTrigger with
  | none => s
  | some trigger =>
      if trigger.info.id ≠ result.triggerId ∨ trigger.writeInFlight ≠ some result.kind then
        s
      else
        s.acceptTriggerWriteResult trigger result

/-- Receives the next result of a forwarding task. -/
def receiveTriggerWriteResult (s : SlotActor) : SlotActor :=
  match s.trigger.writeResults with
  | [] => s
  | result :: rest =>
      { s with trigger.writeResults := rest }.handleTriggerWriteResult result

/-- `drain_trigger_write_results`: at most `count` results are queued. -/
def drainTriggerWriteResults : ℕ → SlotActor → SlotActor
  | 0, s => s
  | count + 1, s =>
      let s := s.ask
      if s.answer.ready && !s.trigger.writeResults.isEmpty then
        drainTriggerWriteResults count s.receiveTriggerWriteResult
      else
        s

/-- Waits for the write in flight after the port stopped. -/
def settleTriggerWriteAfterPortStop (s : SlotActor) : SlotActor :=
  let s := if s.triggerWriteInFlight then s.receiveTriggerWriteResult else s
  s.drainTriggerWriteResults s.trigger.writeResults.length

/-! ## Queries -/

def lookupTrigger (triggerId : Uuid) (s : SlotActor) : Except SlotError TriggerInfo :=
  match s.trigger.activeTrigger.filter fun trigger => trigger.info.id = triggerId with
  | some trigger => .ok trigger.info
  | none =>
      match s.trigger.terminalTriggers triggerId with
      | some info => .ok info
      | none => .error (.triggerNotFound triggerId)

def observeTriggerRx (data : Bytes) (s : SlotActor) : SlotActor × Option Bytes :=
  let s := s.ask
  match s.trigger.activeTrigger with
  | none => (s, none)
  | some trigger =>
      let observed := trigger.observeRx data s.now
      (s.setTrigger observed.1, observed.2)

def triggerWriteIsDue (s : SlotActor) : Bool :=
  s.trigger.activeTrigger.any fun trigger =>
    triggerWriteDueAt s.now trigger.deadline trigger.nextWriteAt
      trigger.pendingTerminal.isSome trigger.writeInFlight.isSome

end SlotActor
end SerialPlatform
