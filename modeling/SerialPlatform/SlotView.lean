import SerialPlatform.SlotTurn

/-!
# What an observer follows

A `View` keeps of a port actor what the guarantees about its timeline speak of:
the port, the Run, the Trigger, the macro, the offsets and the trace.  Received
segments which the actor took from the reader but did not account for yet are
in its hand.
-/

namespace SerialPlatform

/-- A stretch of the received byte stream: bytes, or only their number. -/
inductive RxSegment where
  | data (bytes : Bytes)
  | gap (count : ℕ)
  deriving DecidableEq

def gapSegments (count : ℕ) : List RxSegment :=
  if count = 0 then [] else [.gap count]

def PortEvent.segments : PortEvent → List RxSegment
  | .rx data => [.data data]
  | .overflow droppedBytes => gapSegments droppedBytes
  | .closed _ droppedBytes => gapSegments droppedBytes
  | .readerBarrier _ => []

def ReaderTail.segments (tail : ReaderTail) : List RxSegment :=
  gapSegments tail.droppedBytes ++ if tail.pending = [] then [] else [.data tail.pending]

/-- What received bytes, write results and timers leave alone. -/
structure Standing where
  config : SlotConfig
  transportProfile : Option TransportProfile
  modelProfile : Option ModelProfile
  pendingReconfiguration : Option PendingReconfiguration
  daemonEpoch : Uuid
  generation : ℕ
  administrativelyPaused : Bool
  control : ControlState
  writeRequestCache : Table Uuid (CachedResult WriteFingerprint)
  writeRequestOrder : List Uuid
  executedWriteIds : ExecutedWriteIds

def SlotActor.standing (s : SlotActor) : Standing where
  config := s.config
  transportProfile := s.transportProfile
  modelProfile := s.modelProfile
  pendingReconfiguration := s.pendingReconfiguration
  daemonEpoch := s.daemonEpoch
  generation := s.port.generation
  administrativelyPaused := s.port.administrativelyPaused
  control := s.authority.control
  writeRequestCache := s.caches.writeRequestCache
  writeRequestOrder := s.caches.writeRequestOrder
  executedWriteIds := s.caches.executedWriteIds

structure View where
  standing : Standing
  port : Option PortWorker
  portEvents : Option (List PortEvent)
  activeRun : Option RunInfo
  runContext : Option RunContextState
  pendingRunStart : Option PendingRunStartState
  activeTrigger : Option ActiveTrigger
  writeResults : List TriggerWriteResult
  activeMacro : Option ActiveMacro
  seq : ℕ
  rxOffset : ℕ
  txOffset : ℕ
  hand : List RxSegment
  trace : List Effect

def SlotActor.view (hand : List RxSegment) (s : SlotActor) : View where
  standing := s.standing
  port := s.port.port
  portEvents := s.port.portEvents
  activeRun := s.authority.activeRun
  runContext := s.authority.runContext
  pendingRunStart := s.authority.pendingRunStart
  activeTrigger := s.trigger.activeTrigger
  writeResults := s.trigger.writeResults
  activeMacro := s.macros.activeMacro
  seq := s.timeline.seq
  rxOffset := s.timeline.rxOffset
  txOffset := s.timeline.txOffset
  hand := hand
  trace := s.trace

namespace View

def record (v : View) (effect : Effect) : View :=
  { v with trace := v.trace ++ [effect] }

/-- The timeline after one event. -/
def emit (v : View) (event : TimelineEvent) : View :=
  { v with
    seq := event.seq
    rxOffset :=
      if event.direction = .rx then satAdd u64Max v.rxOffset event.data.length
      else v.rxOffset
    txOffset :=
      if event.direction = .tx then satAdd u64Max v.txOffset event.data.length
      else v.txOffset
    trace := v.trace ++ [.event event] }

/-- The event is the next one, at the current offset of its stream. -/
structure Next (v : View) (event : TimelineEvent) : Prop where
  seq : event.seq = satAdd u64Max v.seq 1
  offsets : (event.streamOffsetStart, event.streamOffsetEnd) =
    match event.direction with
    | .rx => (some v.rxOffset, some (satAdd u64Max v.rxOffset event.data.length))
    | .tx => (some v.txOffset, some (satAdd u64Max v.txOffset event.data.length))
    | .none => (none, none)
  port : event.port = v.standing.config.port
  epoch : event.daemonEpoch = v.standing.daemonEpoch

/-- A note of degraded logging. -/
structure IsNote (event : TimelineEvent) : Prop where
  kind : event.kind = .loggingDegraded
  direction : event.direction = .none
  data : event.data = []

/-- Notes which follow an event. -/
inductive Noted : View → View → Prop
  | nil {v : View} : Noted v v
  | note {v : View} {event : TimelineEvent} (hnote : IsNote event) (hnext : v.Next event) :
      Noted v (v.emit event)

end View

/-- What an event says. -/
structure EventIs (event : TimelineEvent) (kind : EventKind) (direction : Direction)
    (data : Bytes) (actor : Option Actor) (operationId runId : Option Uuid)
    (metadata : Metadata) : Prop where
  kind : event.kind = kind
  direction : event.direction = direction
  data : event.data = data
  actor : event.actor = actor
  operationId : event.operationId = operationId
  runId : event.runId = runId
  metadata : event.metadata = metadata

namespace SlotActor

/-! ## What does not show -/

section Silent

variable (hand : List RxSegment) (s : SlotActor)

@[simp] theorem view_ask : s.ask.view hand = s.view hand := rfl

@[simp] theorem view_publishSnapshot : s.publishSnapshot.view hand = s.view hand := rfl

@[simp] theorem view_record (effect : Effect) :
    (s.record effect).view hand = (s.view hand).record effect := rfl

@[simp] theorem view_setTrigger (trigger : ActiveTrigger) :
    (s.setTrigger trigger).view hand =
      { s.view hand with activeTrigger := some trigger } := rfl

@[simp] theorem view_setControl (control : ControlState) :
    (s.setControl control).view hand =
      { s.view hand with standing.control := control } := rfl

@[simp] theorem view_retireTrigger (info : TriggerInfo) :
    (s.retireTrigger info).view hand = s.view hand := by
  simp only [retireTrigger, view, standing]

@[simp] theorem view_retireMacro (info : MacroExecutionInfo) :
    (s.retireMacro info).view hand = s.view hand := by
  simp only [retireMacro, view, standing]

@[simp] theorem view_setArming (arming : Bool) :
    (s.setArming arming).view hand = s.view hand := rfl

@[simp] theorem view_setMacroWriteAuthorized (id : Option Uuid) :
    (s.setMacroWriteAuthorized id).view hand = s.view hand := rfl

@[simp] theorem view_cacheResult (key : String × Uuid) (fingerprint : Fingerprint)
    (result : SlotResult) :
    (s.cacheResult key fingerprint result).view hand = s.view hand := by
  unfold cacheResult
  split_ifs
  · rfl
  · simp only [view, standing]

@[simp] theorem view_cacheRunStartTerminal (approval : PendingRunStartApproval)
    (result : CommandResult) :
    (s.cacheRunStartTerminal approval result).view hand = s.view hand := by
  unfold cacheRunStartTerminal
  simp only
  split
  · split_ifs <;> rfl
  · exact view_cacheResult hand s _ _ _

end Silent

/-! ## The journal does not show -/

section Journal

variable (hand : List RxSegment) (s : SlotActor)

theorem view_trackJournalAck (seq : ℕ) (ack : JournalAck) (permit alreadyTimedOut : Bool) :
    (s.trackJournalAck seq ack permit alreadyTimedOut).1.view hand = s.view hand := by
  unfold trackJournalAck
  split <;> rfl

theorem view_markLoggingDegradedAt (error : String) (seq : ℕ) :
    (s.markLoggingDegradedAt error seq).1.view hand = s.view hand := by
  unfold markLoggingDegradedAt
  split <;> rfl

theorem view_journalEvent (eventSeq : ℕ) :
    (s.journalEvent eventSeq).1.view hand = s.view hand := by
  have hmark : ∀ (s : SlotActor) (error : String),
      (degradation error (s.markLoggingDegraded error)).1.view hand = s.view hand :=
    fun s error => s.view_markLoggingDegradedAt hand error _
  unfold journalEvent
  cases s.answer.journal with
  | refused error => exact hmark s error
  | accepted ack permit =>
      simp only
      split_ifs with hwait
      · cases ack with
        | durable => rfl
        | failed error => exact hmark s error
        | late result => exact (view_trackJournalAck hand _ _ _ _ _).trans (hmark s _)
      · have htrack := s.view_trackJournalAck hand eventSeq ack permit false
        cases htracked : s.trackJournalAck eventSeq ack permit false with
        | mk tracked outcome =>
            rw [htracked] at htrack
            cases outcome with
            | ok _ => exact htrack
            | error error => exact (hmark tracked error).trans htrack

end Journal

/-! ## Emission -/

variable (hand : List RxSegment)

theorem view_deliver (event : TimelineEvent) (s : SlotActor) :
    (s.deliver event).view hand =
      { s.view hand with trace := s.trace ++ [.event event] } := rfl

/-- One more note of degraded logging. -/
theorem view_publishNondurableLoggingEvent (error : String) (s : SlotActor) :
    View.Noted (s.view hand) ((s.publishNondurableLoggingEvent error).view hand) := by
  have hnote : View.Noted (s.view hand) ((s.view hand).emit
    { port := s.config.port
      daemonEpoch := s.daemonEpoch
      seq := s.nextSeq
      generation := s.port.generation
      wallTimeNs := s.ask.answer.wall
      monotonicTimeNs := s.ask.monotonicTimeNs
      kind := .loggingDegraded
      direction := .none
      actor := some systemActor
      runId := s.authority.activeRun.map RunInfo.id
      operationId := none
      streamOffsetStart := none
      streamOffsetEnd := none
      data := []
      metadata := [("error", .str error)]
      durable := false }) := .note ⟨rfl, rfl, rfl⟩ ⟨rfl, rfl, rfl, rfl⟩
  exact hnote

variable (kind : EventKind) (direction : Direction) (data : Bytes) (actor : Option Actor)
  (operationId runId : Option Uuid) (metadata : Metadata)

/-- An emission is the event it says, followed by at most one note. -/
theorem view_emitInner (s : SlotActor) :
    ∃ event, EventIs event kind direction data actor operationId runId metadata ∧
      (s.view hand).Next event ∧
      View.Noted ((s.view hand).emit event)
        ((s.emitInner kind direction data actor operationId runId metadata).view hand) := by
  unfold emitInner
  extract_lets s1 eventSeq offsets moved s2 journaled event s3
  have hjournal : journaled.1.view hand = s2.view hand :=
    view_journalEvent hand s2 eventSeq
  have hevent : EventIs event kind direction data actor operationId runId metadata :=
    ⟨rfl, rfl, rfl, rfl, rfl, rfl, rfl⟩
  have hnext : (s.view hand).Next event := by
    refine ⟨rfl, ?_, rfl, rfl⟩
    simp only [event, offsets, streamOffsets]
    cases direction <;> rfl
  have hemitted : s3.view hand = (s.view hand).emit event := by
    have hdeliver := view_deliver hand event journaled.1
    have htrace : journaled.1.trace = s.trace := congrArg View.trace hjournal
    rw [hjournal, htrace] at hdeliver
    refine hdeliver.trans ?_
    simp only [s2, moved, offsets, streamOffsets, View.emit, event]
    cases direction <;> rfl
  refine ⟨event, hevent, hnext, ?_⟩
  rw [← hemitted]
  cases journaled.2.2 with
  | none => exact .nil
  | some error => exact view_publishNondurableLoggingEvent hand error s3

end SlotActor
end SerialPlatform
