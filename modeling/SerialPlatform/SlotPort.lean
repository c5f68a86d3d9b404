import SerialPlatform.SlotRun

/-!
# The port of an actor

Opening and closing the serial handle, and what its reader delivers.  While a
Trigger write is in flight, RX is matched at once but emitted only after the
write's TX event.
-/

namespace SerialPlatform
namespace SlotActor

def setPort (s : SlotActor) (port : PortState) : SlotActor :=
  { s with port := port }

/-! ## Receiving -/

/-- Buffers a chunk behind the write in flight. -/
def bufferTriggerRx (data : Bytes) (s : SlotActor) : SlotActor :=
  match s.trigger.activeTrigger with
  | none => s
  | some trigger =>
      let pushed := trigger.bufferedRx.pushRx data
      let s := s.setTrigger { trigger with bufferedRx := pushed.1 }
      if pushed.2 then s.markTriggerStopping .rxGap none else s

def handleRxData (data : Bytes) (s : SlotActor) : SlotActor :=
  let s := s.ask
  let s := s.setPort { s.port with
    lastRxWallTimeNs := some s.answer.wall
    lastRxInstant := some s.now
    targetActivity := .active }
  let writeWasInFlight := s.triggerWriteInFlight
  let observed := s.observeTriggerRx data
  let s :=
    match observed.2 with
    | some pattern => observed.1.markTriggerStopping .matched (some pattern)
    | none => observed.1
  if writeWasInFlight then
    s.bufferTriggerRx data
  else
    (s.emit .rx .rx data (some deviceActor) none []).finishStoppedTriggerIfIdle

def addTriggerGap (droppedBytes : ℕ) (s : SlotActor) : SlotActor :=
  match s.trigger.activeTrigger with
  | none => s
  | some trigger =>
      s.setTrigger { trigger with bufferedRx := trigger.bufferedRx.addGap droppedBytes }

def handleRxOverflow (droppedBytes : ℕ) (s : SlotActor) : SlotActor :=
  if droppedBytes = 0 then
    s
  else
    let s := s.setPort { s.port with
      rxOverflowBytes := satAdd u64Max s.port.rxOverflowBytes droppedBytes }
    let writeInFlight := s.triggerWriteInFlight
    let s := s.markTriggerStopping .rxGap none
    if writeInFlight then
      s.addTriggerGap droppedBytes
    else
      (s.emitGap (s.authority.activeRun.map RunInfo.id) droppedBytes
        (queueOverflowMetadata droppedBytes)).finishStoppedTriggerIfIdle

/-! ## Stopping -/

/-- A duplicate close notification must not recurse, but its bytes count. -/
def drainedPortEventParts : PortEvent → Option Bytes × ℕ
  | .rx data => (some data, 0)
  | .overflow droppedBytes => (none, droppedBytes)
  | .closed _ droppedBytes => (none, droppedBytes)
  | .readerBarrier _ => (none, 0)

def drainPortEvent (s : SlotActor) (event : PortEvent) : SlotActor :=
  let parts := drainedPortEventParts event
  let s :=
    match parts.1 with
    | some data => s.handleRxData data
    | none => s
  s.handleRxOverflow parts.2

/-- Joins the workers and drains what they leave. -/
def stopPort (s : SlotActor) : SlotActor :=
  let s := s.stopMacro .cancelled "serial port stopped"
  let readerTail :=
    match s.port.port with
    | some worker => worker.tail
    | none => {}
  let events := s.port.portEvents.getD []
  let s := s.setPort { s.port with port := none, portEvents := none }
  let s := events.foldl drainPortEvent s
  let s := s.handleRxOverflow readerTail.droppedBytes
  if readerTail.pending = [] then s else s.handleRxData readerTail.pending

/-- Stops the port and lets the Trigger end on what was in flight. -/
def stopPortAndTrigger (status : TriggerStatus) (s : SlotActor) : SlotActor :=
  let s := s.markTriggerStopping status none
  s.stopPort.settleTriggerWriteAfterPortStop.finishStoppedTriggerIfIdle

def scheduleRetry (s : SlotActor) : SlotActor :=
  let s := s.ask
  s.setPort { s.port with
    retryAt := s.now + s.port.retryDelay
    retryDelay := min (s.port.retryDelay * 2) openBackoffMax }

def emitSystem (kind : EventKind) (metadata : Metadata) (s : SlotActor) : SlotActor :=
  s.emit kind .none [] (some systemActor) none metadata

def handlePortClosed (reason : String) (s : SlotActor) : SlotActor :=
  let s := s.stopPortAndTrigger .portClosed
  let s := s.setPort { s.port with
    sessionState := .backoff
    stateReason := some reason
    stateCode := some .portIo
    targetActivity := .unknown }
  let s := s.loseControl "serial_port_disconnected" "serial port disconnected"
  (s.scheduleRetry.publishSnapshot).emitSystem .serialClosed [("reason", .str reason)]

def handlePortEvent (event : PortEvent) (s : SlotActor) : SlotActor :=
  match event with
  | .rx data => s.handleRxData data
  | .overflow droppedBytes => s.handleRxOverflow droppedBytes
  | .closed reason droppedBytes => (s.handleRxOverflow droppedBytes).handlePortClosed reason
  | .readerBarrier _ => s

/-! ## Opening -/

def serialBackendName : String := "tokio_serial"

/-- Spawns the workers of an open handle. -/
def installPort (session : PortSession) (s : SlotActor) : SlotActor :=
  let run := session.run
  (s.setPort { s.port with
    port := some { tail := run.tail, stopped := false }
    portEvents := some run.queued }).record (.portOpened session)

def openedPort (session : PortSession) (s : SlotActor) : SlotActor :=
  let generation := satAdd u64Max s.port.generation 1
  let s := s.setPort { s.port with endpointPresent := true, generation := generation }
  let s := s.ask
  let changed := s.authority.control.changeGeneration generation
  let s := s.setControl changed.1
  let s := s.cancelPendingRunStart "serial_generation_changed"
  let s := s.dropLease "serial generation changed" .controlRevoked changed.2
  let s := s.installPort session
  let s := s.setPort { s.port with
    sessionState := .online
    stateReason := none
    stateCode := none
    targetActivity := .unknown
    retryDelay := openBackoffMin }
  s.publishSnapshot.emitSystem .serialOpened
    [("port", .str s.config.port),
      ("baud_rate", .num s.effectiveSerialSettings.baudRate),
      ("backend", .str serialBackendName)]

def openFailed (error : PortOpenError) (s : SlotActor) : SlotActor :=
  let s := s.setPort { s.port with
    sessionState := .backoff
    stateReason := some error.message
    stateCode := some error.code }
  s.scheduleRetry.publishSnapshot.emitSystem .serialOpenFailed
    [("error", .str error.message), ("error_code", .errorCode error.code)]

def tryOpen (s : SlotActor) : SlotActor :=
  let s := s.ask
  let s := s.setPort { s.port with
    endpointPresent := s.answer.endpointPresent
    sessionState := .opening
    stateReason := none
    stateCode := none }
  let s := s.publishSnapshot.emitSystem .serialOpening [("port", .str s.config.port)]
  let s := s.ask
  match s.answer.opened with
  | .ok session => s.openedPort session
  | .error error => s.openFailed error

/-! ## Waiting for the workers -/

/-- Takes the next event of the open channel; `none` is the end of the channel,
which the workers close when they are gone. -/
def receivePortEvent (s : SlotActor) : SlotActor × Option PortEvent :=
  match s.port.portEvents with
  | some (event :: rest) => (s.setPort { s.port with portEvents := some rest }, some event)
  | _ =>
      (s.setPort { s.port with
        port := s.port.port.map fun worker => { worker with stopped := true } }, none)

/-- The loop of `flush_pretrigger_rx`, which ends at its own barrier. -/
def awaitBarrier (barrierId : Uuid) : ℕ → SlotActor → SlotActor × Except SlotError Unit
  | 0, s => (s, .error .portOffline)
  | fuel + 1, s =>
      if s.port.portEvents.isNone then
        (s, .error .portOffline)
      else
        match s.receivePortEvent with
        | (s, none) => (s, .error .portOffline)
        | (s, some (.readerBarrier id)) =>
            if id = barrierId then (s, .ok ()) else awaitBarrier barrierId fuel s
        | (s, some event) =>
            let s := s.handlePortEvent event
            if s.port.port.isNone then
              (s, .error .portOffline)
            else
              awaitBarrier barrierId fuel s

/-- Drains the RX which the reader holds.  Each turn of the loop takes one of the
events which the workers still deliver. -/
def flushPretriggerRx (s : SlotActor) : SlotActor × Except SlotError Unit :=
  let s := s.ask
  if s.port.port.isNone then
    (s, .error .portOffline)
  else if s.answer.send = .closed then
    (s, .error .portOffline)
  else
    s.awaitBarrier s.answer.uuid ((s.port.portEvents.getD []).length + 1)

/-- The loop of `quiesce_trigger_for_human_command`: either the write result or
the next port event is handled first. -/
def drainUntilWriteSettles : ℕ → SlotActor → SlotActor
  | 0, s => s
  | fuel + 1, s =>
      if s.triggerWriteInFlight then
        let s := s.ask
        if s.answer.ready && s.port.portEvents.isSome then
          match s.receivePortEvent with
          | (s, some event) => drainUntilWriteSettles fuel (s.handlePortEvent event)
          | (s, none) => s
        else
          drainUntilWriteSettles fuel s.receiveTriggerWriteResult
      else
        s

/-- Stops an Agent Trigger and drains its write before a Human command.  Each
turn of the loop takes a port event or the result. -/
def quiesceTriggerForHumanCommand (s : SlotActor) : SlotActor :=
  let s := s.markTriggerStopping .cancelled none
  let fuel := (s.port.portEvents.getD []).length + s.trigger.writeResults.length + 1
  (s.drainUntilWriteSettles fuel).finishStoppedTriggerIfIdle

end SlotActor
end SerialPlatform
