import SerialPlatform.SlotState

/-!
# The timeline of a port

Every event gets the next sequence number, is offered to the journal, enters the
ring, moves the published snapshot and is broadcast.  An event of the trace has
gone through all of these.
-/

namespace SerialPlatform
namespace SlotActor

/-- The sequence number of the next event. -/
def nextSeq (s : SlotActor) : ℕ := satAdd u64Max s.timeline.seq 1

def monotonicTimeNs (s : SlotActor) : ℕ := min (s.now - s.daemonStarted) u64Max

/-! ## Logging health -/

/-- `mark_logging_degraded_at`; says whether the logging state changed. -/
def markLoggingDegradedAt (error : String) (seq : ℕ) (s : SlotActor) :
    SlotActor × Bool :=
  if seq < s.timeline.journalHealthSeq then
    (s, false)
  else
    ({ s with
        timeline.journalHealthSeq := seq
        timeline.logging := .degraded
        port.stateReason := some ("journal degraded: " ++ error)
        port.stateCode := some .internal }, s.timeline.logging ≠ .degraded)

def markLoggingDegraded (error : String) (s : SlotActor) : SlotActor × Bool :=
  s.markLoggingDegradedAt error s.timeline.seq

/-- What a late acknowledgement reports. -/
def lateOutcome : Except String Unit → JournalAckOutcome
  | .ok () => .durable
  | .error error => .failed error

/-- The results which the forwarding task of one acknowledgement delivers. -/
def ackOutcomes (alreadyTimedOut : Bool) : JournalAck → List JournalAckOutcome
  | .durable => [.durable]
  | .failed error => [.failed error]
  | .late result =>
      if alreadyTimedOut then [lateOutcome result] else [.timedOut, lateOutcome result]

def trackJournalAck (seq : ℕ) (ack : JournalAck) (permit alreadyTimedOut : Bool)
    (s : SlotActor) : SlotActor × Except String Unit :=
  if permit then
    ({ s with
        timeline.pendingAcks := s.timeline.pendingAcks ++
          [{ seq := seq, outcomes := ackOutcomes alreadyTimedOut ack }] }, .ok ())
  else
    (s, .error "journal acknowledgement tracker is saturated; continuing live delivery")

/-- The error which a change to degraded logging announces. -/
def degradation (error : String) (marked : SlotActor × Bool) :
    SlotActor × Option String :=
  (marked.1, if marked.2 then some error else none)

/-- Offers an event to the journal: whether it is durable yet, and the error to
announce if logging became degraded. -/
def journalEvent (eventSeq : ℕ) (s : SlotActor) :
    SlotActor × Bool × Option String :=
  let waitForJournal :=
    s.trigger.activeTrigger.isNone && s.macros.activeMacro.isNone && !s.trigger.arming
  match s.answer.journal with
  | .refused error =>
      let marked := degradation error (s.markLoggingDegraded error)
      (marked.1, false, marked.2)
  | .accepted ack permit =>
      if s.timeline.logging = .healthy && waitForJournal then
        match ack with
        | .durable => ({ s with timeline.journalHealthSeq := eventSeq }, true, none)
        | .failed error =>
            let marked := degradation error (s.markLoggingDegraded error)
            (marked.1, false, marked.2)
        | .late _ =>
            let error := "journal acknowledgement timed out; continuing live delivery"
            let marked := degradation error (s.markLoggingDegraded error)
            -- a late disk write must be able to recover
            ((marked.1.trackJournalAck eventSeq ack permit true).1, false, marked.2)
      else
        match s.trackJournalAck eventSeq ack permit false with
        | (s, .ok ()) => (s, false, none)
        | (s, .error error) =>
            let marked := degradation error (s.markLoggingDegraded error)
            (marked.1, false, marked.2)

/-! ## Emission -/

/-- The stream offsets of an event, and the offsets after it. -/
def streamOffsets (direction : Direction) (length : ℕ) (timeline : Timeline) :
    Timeline × Option ℕ × Option ℕ :=
  match direction with
  | .rx =>
      let stop := satAdd u64Max timeline.rxOffset length
      ({ timeline with rxOffset := stop }, some timeline.rxOffset, some stop)
  | .tx =>
      let stop := satAdd u64Max timeline.txOffset length
      ({ timeline with txOffset := stop }, some timeline.txOffset, some stop)
  | .none => (timeline, none, none)

/-- Ring, snapshot and broadcast. -/
def deliver (event : TimelineEvent) (s : SlotActor) : SlotActor :=
  ({ s with
      timeline.ring := s.timeline.ring.push event s.answer.eventSize }).publishSnapshot.record
    (.event event)

def publishNondurableLoggingEvent (error : String) (s : SlotActor) : SlotActor :=
  let s := s.ask
  let s := { s with timeline.seq := s.nextSeq }
  s.deliver {
    port := s.config.port
    daemonEpoch := s.daemonEpoch
    seq := s.timeline.seq
    generation := s.port.generation
    wallTimeNs := s.answer.wall
    monotonicTimeNs := s.monotonicTimeNs
    kind := .loggingDegraded
    direction := .none
    actor := some systemActor
    runId := s.authority.activeRun.map RunInfo.id
    operationId := none
    streamOffsetStart := none
    streamOffsetEnd := none
    data := []
    metadata := [("error", .str error)]
    durable := false }

/-- Appends one event; its sequence number is the `nextSeq` of the state before. -/
def emitInner (kind : EventKind) (direction : Direction) (data : Bytes)
    (actor : Option Actor) (operationId runId : Option Uuid) (metadata : Metadata)
    (s : SlotActor) : SlotActor :=
  let s := s.ask
  let eventSeq := s.nextSeq
  let offsets := streamOffsets direction data.length s.timeline
  let s := { s with timeline := { offsets.1 with seq := eventSeq } }
  let journaled := s.journalEvent eventSeq
  let event : TimelineEvent := {
    port := s.config.port
    daemonEpoch := s.daemonEpoch
    seq := eventSeq
    generation := s.port.generation
    wallTimeNs := s.answer.wall
    monotonicTimeNs := s.monotonicTimeNs
    kind := kind
    direction := direction
    actor := actor
    runId := runId
    operationId := operationId
    streamOffsetStart := offsets.2.1
    streamOffsetEnd := offsets.2.2
    data := data
    metadata := metadata
    durable := journaled.2.1 }
  let s := journaled.1.deliver event
  match journaled.2.2 with
  | some error => s.publishNondurableLoggingEvent error
  | none => s

def emitWithRun (kind : EventKind) (runId : Option Uuid) (actor : Option Actor)
    (metadata : Metadata) (s : SlotActor) : SlotActor :=
  s.emitInner kind .none [] actor none runId metadata

/-- An event of the active Run. -/
def emit (kind : EventKind) (direction : Direction) (data : Bytes)
    (actor : Option Actor) (operationId : Option Uuid) (metadata : Metadata)
    (s : SlotActor) : SlotActor :=
  s.emitInner kind direction data actor operationId
    (s.authority.activeRun.map RunInfo.id) metadata

/-! ## Acknowledgements out of band -/

def handleJournalAckResult (seq : ℕ) (outcome : JournalAckOutcome) (s : SlotActor) :
    SlotActor :=
  let degrade := fun (error : String) =>
    let marked := s.markLoggingDegradedAt error seq
    if marked.2 then marked.1.publishNondurableLoggingEvent error else marked.1
  match outcome with
  | .durable =>
      let s := { s with timeline.ring := s.timeline.ring.markDurable seq }
      if s.timeline.journalHealthSeq ≤ seq then
        let s := { s with timeline.journalHealthSeq := seq, timeline.logging := .healthy }
        let degraded := s.port.stateReason.any fun reason =>
          "journal degraded:".toList.isPrefixOf reason.toList
        let s :=
          if degraded then { s with port.stateReason := none, port.stateCode := none }
          else s
        s.publishSnapshot
      else
        s
  | .failed error => degrade error
  | .timedOut =>
      degrade ("journal acknowledgement for event " ++ toString seq ++
        " timed out; continuing live delivery")

end SlotActor
end SerialPlatform
