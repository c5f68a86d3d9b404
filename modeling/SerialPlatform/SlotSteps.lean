import SerialPlatform.SlotView

/-!
# What a turn is made of

A turn of the actor is a sequence of small steps on its view.  Routine steps may
happen in any turn, the others on behalf of a request or of a macro only.  Each
step names the facts under which the code takes it, so a property of the timeline
is proved once for each step.
-/

namespace SerialPlatform

/-! ## What an event is about -/

/-- Events which neither open nor close anything. -/
def EventKind.isPlain : EventKind → Bool
  | .rx | .tx | .gap => false
  | .runStartRequested | .runStartApproved | .runStartDenied | .runStartTimedOut
  | .runStartCancelled => false
  | .runStarted | .runEnded | .runAborted => false
  | .triggerCompleted | .triggerCancelled | .triggerFailed => false
  | _ => true

/-- An approval ends without a Run. -/
def EventKind.endsApproval (kind : EventKind) : Prop :=
  kind = .runStartDenied ∨ kind = .runStartTimedOut ∨ kind = .runStartCancelled

def Effect.isReply : Effect → Bool
  | .reply .. | .macroReply _ | .adminReply _ => true
  | _ => false

namespace TimelineEvent

/-- The approval which an event is about. -/
def approval (event : TimelineEvent) : Option PendingRunStartApproval :=
  match event.metadata.lookup "approval" with
  | some (.approval approval) => some approval
  | _ => none

/-- The lost bytes which an event counts. -/
def droppedBytes (event : TimelineEvent) : Option ℕ :=
  match event.metadata.lookup "dropped_bytes" with
  | some (.num count) => some count
  | _ => none

/-- The Trigger which an event is about. -/
def triggerId (event : TimelineEvent) : Option Uuid :=
  match event.metadata.lookup "trigger_id" with
  | some (.uuid id) => some id
  | _ => none

/-- The record of the Trigger which an event is about. -/
def triggerInfo (event : TimelineEvent) : Option TriggerInfo :=
  match event.metadata.lookup "trigger" with
  | some (.trigger info) => some info
  | _ => none

/-- The event is the TX of a Human command. -/
def isHumanCommand (event : TimelineEvent) : Bool :=
  match event.metadata.lookup "human_command" with
  | some (.bool value) => event.kind = .tx && value
  | _ => false

end TimelineEvent

/-! ## Writes -/

/-- The bytes which the writer reports for a command. -/
def WriterRun.written (run : WriterRun) : ℕ :=
  (run.outcome.map PortWriteOutcome.written).getD 0

/-- The Trigger write was taken whole. -/
def TriggerWriteResult.isFull (result : TriggerWriteResult) : Prop :=
  (SlotActor.triggerWriteReport result.outcome).1 = result.data.length ∧
    (SlotActor.triggerWriteReport result.outcome).2 = none

instance (result : TriggerWriteResult) : Decidable result.isFull :=
  inferInstanceAs (Decidable (_ ∧ _))

def TriggerWriteResult.written (result : TriggerWriteResult) : ℕ :=
  (SlotActor.triggerWriteReport result.outcome).1

/-- What a result asks to be emitted behind its TX event. -/
def TriggerRxAuditBuffer.queued (buffer : TriggerRxAuditBuffer) : List PortEvent :=
  buffer.events ++ if buffer.droppedBytes = 0 then [] else [.overflow buffer.droppedBytes]

namespace View

/-- The writer which took a command, and what it did. -/
structure Sent (v : View) (worker : PortWorker) (data : Bytes) (run : WriterRun) :
    Prop where
  port : v.port = some worker
  report : ∀ outcome, run.outcome = some outcome → WriterReport data run.accepted outcome
  stopped : worker.stopped = true → run = { accepted := [], outcome := none }

def writeInFlight (v : View) : Bool :=
  v.activeTrigger.any fun trigger => trigger.writeInFlight.isSome

/-- An event without bytes. -/
structure IsEvent (v : View) (event : TimelineEvent) : Prop where
  direction : event.direction = .none
  data : event.data = []
  next : v.Next event

/-- The event of received bytes. -/
structure IsRx (v : View) (event : TimelineEvent) (data : Bytes) : Prop where
  kind : event.kind = .rx
  direction : event.direction = .rx
  data : event.data = data
  next : v.Next event

/-- The view once lost bytes are counted. -/
def skipRx (v : View) (count : ℕ) : View :=
  { v with rxOffset := satAdd u64Max v.rxOffset count }

/-- The event of lost bytes, which are counted already. -/
structure IsGap (v : View) (event : TimelineEvent) (count : ℕ) : Prop where
  kind : event.kind = .gap
  droppedBytes : event.droppedBytes = some count
  event : v.IsEvent event

/-- The TX event of bytes which the driver took. -/
structure IsTx (v : View) (event : TimelineEvent) (actor : Actor) (data : Bytes)
    (written : ℕ) : Prop where
  kind : event.kind = .tx
  direction : event.direction = .tx
  actor : event.actor = some actor
  data : event.data = data.take written
  next : v.Next event

def mark (v : View) (status : TriggerStatus) (matchedPattern : Option Bytes) : View :=
  match v.activeTrigger with
  | none => v
  | some trigger =>
      ({ v with activeTrigger := some (trigger.markStopping status matchedPattern) } :
        View).record (.triggerMarked trigger.info.id status matchedPattern)

/-- The schedule after a full write. -/
def confirm (v : View) (kind : TriggerWriteKind) (now : ℕ) : View :=
  match v.activeTrigger with
  | none => v
  | some trigger =>
      let confirmed := trigger.confirmWrite kind now
      let v := { v with activeTrigger := some confirmed.1 }
      match confirmed.2 with
      | some status => v.mark status none
      | none => v

def clearBuffer (v : View) : View :=
  { v with
    activeTrigger := v.activeTrigger.map fun trigger => { trigger with bufferedRx := {} } }

/-- The write in flight is taken off the Trigger. -/
def settle (v : View) (trigger : ActiveTrigger) (kind : TriggerWriteKind)
    (rest : List TriggerWriteResult) : View :=
  ({ v with
    activeTrigger := some { trigger with writeInFlight := none }
    writeResults := rest } : View).record (.triggerWriteSettled trigger.info.id kind)

/-- The context after a Human intervened in the Run. -/
def interferedContext (v : View) (runId : Uuid) : RunContextState :=
  let context := v.runContext.getD (SlotActor.freshRunContext runId)
  { context with
    revision := satAdd u64Max context.revision 1
    lastHumanCommandSeq := some (satAdd u64Max v.seq 1) }

/-- The port is given up; what its workers leave is in the hand. -/
def stopped (v : View) : View :=
  { v with
    port := none
    portEvents := none
    hand := (v.portEvents.getD []).flatMap PortEvent.segments ++
      ((v.port.map PortWorker.tail).getD {}).segments ++ v.hand }

/-- The TX event of a Trigger write, if bytes went out, and the notes behind it. -/
inductive TriggerTx (v : View) (trigger : ActiveTrigger) (result : TriggerWriteResult) :
    View → Prop
  | silent (hwritten : result.written = 0) : TriggerTx v trigger result v
  | tx {event : TimelineEvent} {noted : View} (hwritten : 0 < result.written)
      (htx : v.IsTx event trigger.info.owner result.data result.written)
      (hhuman : event.isHumanCommand = false)
      (htrigger : event.triggerId = some trigger.info.id)
      (hnoted : Noted (v.emit event) noted) :
      TriggerTx v trigger result
        { noted with activeTrigger := some (trigger.recordTx event.seq result.written) }

/-- The emission of what arrived while a write was in flight. -/
inductive Flushed : List PortEvent → View → View → Prop
  | done {v : View} : Flushed [] v v
  | rx {v noted flushed : View} {data : Bytes} {rest : List PortEvent}
      {event : TimelineEvent} (hrx : v.IsRx event data)
      (hnoted : Noted (v.emit event) noted) (hrest : Flushed rest noted flushed) :
      Flushed (.rx data :: rest) v flushed
  | gap {v noted flushed : View} {count : ℕ} {rest : List PortEvent}
      {event : TimelineEvent} (hgap : (v.skipRx count).IsGap event count)
      (hnoted : Noted ((v.skipRx count).emit event) noted)
      (hrest : Flushed rest noted flushed) :
      Flushed (.overflow count :: rest) v flushed
  | skip {v flushed : View} {skipped : PortEvent} {rest : List PortEvent}
      (hrx : ∀ data, skipped ≠ .rx data) (hoverflow : ∀ count, skipped ≠ .overflow count)
      (hrest : Flushed rest v flushed) : Flushed (skipped :: rest) v flushed

end View

/-! ## Routine -/

/-- A step which leaves alone whatever a request depends on. -/
inductive Calm : View → View → Prop
  | note {v : View} {event : TimelineEvent} (hplain : event.kind.isPlain = true)
      (hevent : v.IsEvent event) : Calm v (v.emit event)
  | reply {v : View} {effect : Effect} (hreply : effect.isReply = true) :
      Calm v (v.record effect)
  | mark {v : View} {status : TriggerStatus} {matchedPattern : Option Bytes}
      (hterminal : status.isTerminal = true)
      (hpattern : matchedPattern.isSome = true ↔ status = .matched) :
      Calm v (v.mark status matchedPattern)
  | observe {v : View} {trigger : ActiveTrigger} (data : Bytes) (now : ℕ)
      (htrigger : v.activeTrigger = some trigger) :
      Calm v { v with activeTrigger := some (trigger.observeRx data now).1 }
  | unschedule {v : View} {trigger : ActiveTrigger}
      (htrigger : v.activeTrigger = some trigger) :
      Calm v { v with activeTrigger := some { trigger with nextWriteAt := none } }
  | finish {v : View} {trigger : ActiveTrigger} {status : TriggerStatus}
      {matchedPattern : Option Bytes} {event : TimelineEvent}
      (htrigger : v.activeTrigger = some trigger) (hidle : trigger.writeInFlight = none)
      (hpending : trigger.pendingTerminal = some (status, matchedPattern))
      (hkind : event.kind = triggerTerminalKind status)
      (hinfo : event.triggerInfo =
        some (trigger.finalInfo status matchedPattern (satAdd u64Max v.seq 1)))
      (hevent : v.IsEvent event) :
      Calm v (({ v with activeTrigger := none } : View).emit event)
  | handOver {v : View} {trigger : ActiveTrigger} {worker : PortWorker}
      {kind : TriggerWriteKind} {data : Bytes} {run : WriterRun} {checkedAt : ℕ}
      (htrigger : v.activeTrigger = some trigger)
      (hopen : trigger.pendingTerminal = none) (hidle : trigger.writeInFlight = none)
      (hplan : trigger.writePlan = .write kind data)
      (hdeadline : checkedAt < trigger.deadline) (hsent : v.Sent worker data run) :
      Calm v
        (({ v with
          activeTrigger := some (trigger.writeHanded kind)
          writeResults := v.writeResults ++
            [{ triggerId := trigger.info.id
               kind := kind
               data := data
               outcome := SlotActor.triggerWriteAnswer run }] } : View).record
          (.portWrite (.trigger trigger.info.id kind) trigger.info.owner data run
            checkedAt))
  | settle {v sent flushed : View} {trigger : ActiveTrigger} {result : TriggerWriteResult}
      {rest : List TriggerWriteResult} (now : ℕ)
      (htrigger : v.activeTrigger = some trigger)
      (hresults : v.writeResults = result :: rest)
      (hid : trigger.info.id = result.triggerId)
      (hflight : trigger.writeInFlight = some result.kind)
      (htx : (v.settle trigger result.kind rest).TriggerTx
        { trigger with writeInFlight := none } result sent)
      (hflush : View.Flushed trigger.bufferedRx.queued
        (if result.isFull then sent.confirm result.kind now
          else sent.mark .writeFailed none).clearBuffer flushed) :
      Calm v flushed
  | discard {v : View} {result : TriggerWriteResult} {rest : List TriggerWriteResult}
      (hresults : v.writeResults = result :: rest)
      (hstale : ∀ trigger, v.activeTrigger = some trigger →
        trigger.info.id ≠ result.triggerId ∨ trigger.writeInFlight ≠ some result.kind) :
      Calm v { v with writeResults := rest }
  | rxEmit {v : View} {data : Bytes} {rest : List RxSegment} {event : TimelineEvent}
      (hhand : v.hand = .data data :: rest) (hidle : v.writeInFlight = false)
      (hrx : v.IsRx event data) : Calm v (({ v with hand := rest } : View).emit event)
  | rxBuffer {v : View} {trigger : ActiveTrigger} {data : Bytes} {rest : List RxSegment}
      (hhand : v.hand = .data data :: rest) (htrigger : v.activeTrigger = some trigger)
      (hflight : trigger.writeInFlight.isSome = true) :
      Calm v
        { v with
          hand := rest
          activeTrigger := some
            { trigger with bufferedRx := (trigger.bufferedRx.pushRx data).1 } }
  | gapEmit {v : View} {count : ℕ} {rest : List RxSegment} {event : TimelineEvent}
      (hhand : v.hand = .gap count :: rest) (hidle : v.writeInFlight = false)
      (hgap : (v.skipRx count).IsGap event count) :
      Calm v (({ v.skipRx count with hand := rest } : View).emit event)
  | gapBuffer {v : View} {trigger : ActiveTrigger} {count : ℕ} {rest : List RxSegment}
      (hhand : v.hand = .gap count :: rest) (htrigger : v.activeTrigger = some trigger)
      (hflight : trigger.writeInFlight.isSome = true) :
      Calm v
        { v with
          hand := rest
          activeTrigger := some
            { trigger with bufferedRx := trigger.bufferedRx.addGap count } }
  | receive {v : View} {event : PortEvent} {rest : List PortEvent}
      (hevents : v.portEvents = some (event :: rest)) :
      Calm v
        { v with portEvents := some rest, hand := event.segments ++ v.hand }
  | workersGone {v : View} (hevents : v.portEvents.getD [] = []) :
      Calm v
        { v with port := v.port.map fun worker => { worker with stopped := true } }
  | macroMoves {v : View} (next : Option ActiveMacro)
      (hstarts : v.activeMacro = none → next = none) :
      Calm v { v with activeMacro := next }

/-- A step which may happen in any turn. -/
inductive Routine : View → View → Prop
  | calm {v w : View} (h : Calm v w) : Routine v w
  | stand {v : View} (control : ControlState) (generation : ℕ) (paused : Bool) :
      Routine v
        { v with
          standing.control := control
          standing.generation := generation
          standing.administrativelyPaused := paused }
  | closeApproval {v : View} {pending : PendingRunStartState} {event : TimelineEvent}
      (hpending : v.pendingRunStart = some pending) (hkind : event.kind.endsApproval)
      (happroval : event.approval = some pending.approval) (hevent : v.IsEvent event) :
      Routine v (({ v with pendingRunStart := none } : View).emit event)
  | closeRun {v : View} {run : RunInfo} {event : TimelineEvent}
      (hrun : v.activeRun = some run)
      (hkind : event.kind = .runEnded ∨ event.kind = .runAborted)
      (hid : event.runId = some run.id) (hevent : v.IsEvent event) :
      Routine v
        (({ v with activeRun := none, runContext := none } : View).emit event)
  | clearContext {v : View} (hrun : v.activeRun = none) :
      Routine v { v with runContext := none }
  | stopPort {v : View} : Routine v v.stopped

/-- Zero or more calm steps. -/
abbrev Calmly : View → View → Prop := Relation.ReflTransGen Calm

/-- Zero or more routine steps. -/
abbrev Routinely : View → View → Prop := Relation.ReflTransGen Routine

theorem Calmly.trans {u v w : View} (huv : Calmly u v) (hvw : Calmly v w) : Calmly u w :=
  Relation.ReflTransGen.trans huv hvw

theorem Routinely.trans {u v w : View} (huv : Routinely u v) (hvw : Routinely v w) :
    Routinely u w :=
  Relation.ReflTransGen.trans huv hvw

theorem Calmly.routinely {v w : View} (h : Calmly v w) : Routinely v w := by
  induction h with
  | refl => exact .refl
  | tail _ hstep ih => exact ih.tail (.calm hstep)

/-! ## Actions -/

/-- A physical action on behalf of an actor. -/
inductive Wire (known : Actor → Prop) (origin : Origin) : View → View → Prop
  /-- a write which puts nothing on the timeline -/
  | writeSilent {v : View} {actor : Actor} {worker : PortWorker} {data : Bytes}
      {run : WriterRun} {checkedAt : ℕ} (hknown : known actor)
      (hsent : v.Sent worker data run) (hwritten : run.written = 0)
      (hquiet : v.activeTrigger = none ∨ worker.stopped = true)
      (hgate : validateAgentRunContext actor v.activeRun v.runContext = .ok ()) :
      Wire known origin v (v.record (.portWrite origin actor data run checkedAt))
  /-- a write outside of the Run of another actor -/
  | write {v : View} {actor : Actor} {worker : PortWorker} {data : Bytes}
      {run : WriterRun} {checkedAt : ℕ} {event : TimelineEvent} (hknown : known actor)
      (hsent : v.Sent worker data run) (hwritten : 0 < run.written)
      (hquiet : v.activeTrigger = none)
      (hgate : validateAgentRunContext actor v.activeRun v.runContext = .ok ())
      (hhuman : event.isHumanCommand = true → actor.kind = .human ∧
        ∀ active, v.activeRun = some active → active.owner.id = actor.id)
      (htx : (v.record (.portWrite origin actor data run checkedAt)).IsTx event actor data
        run.written)
      (htrigger : event.triggerId = none) :
      Wire known origin v
        ((v.record (.portWrite origin actor data run checkedAt)).emit event)
  /-- a Human command inside of the Run of another actor -/
  | intervene {v : View} {actor : Actor} {worker : PortWorker} {data : Bytes}
      {run : WriterRun} {checkedAt : ℕ} {active : RunInfo} {event : TimelineEvent}
      (horigin : ∃ id, origin = .request id) (hknown : known actor)
      (hsent : v.Sent worker data run) (hwritten : 0 < run.written)
      (hquiet : v.activeTrigger = none) (hactor : actor.kind = .human)
      (hrun : v.activeRun = some active)
      (hother : active.owner.id ≠ actor.id ∨ active.owner.kind = .agent)
      (hroom : (v.interferedContext active.id).revision ≤ writeIdempotencyHistoryEntries)
      (hhuman : event.isHumanCommand = true) (hid : event.runId = some active.id)
      (htx : (v.record (.portWrite origin actor data run checkedAt)).IsTx event actor data
        run.written)
      (htrigger : event.triggerId = none) :
      Wire known origin v
        ((({ v with runContext := some (v.interferedContext active.id) } : View).record
          (.portWrite origin actor data run checkedAt)).emit event)
  | sendBreak {v : View} {actor : Actor} {outcome : Option PortBreakOutcome}
      (hknown : known actor) (hquiet : v.activeTrigger = none)
      (hgate : validateAgentRunContext actor v.activeRun v.runContext = .ok ()) :
      Wire known origin v (v.record (.portBreak origin actor outcome))

/-- A Trigger as it is armed. -/
structure ActiveTrigger.IsNew (trigger : ActiveTrigger) : Prop where
  spec : validateTriggerSpec trigger.info.spec = .ok ()
  firesConfirmed : trigger.info.firesConfirmed = 0
  writeInFlight : trigger.writeInFlight = none
  bufferedRx : trigger.bufferedRx = {}
  pendingTerminal : trigger.pendingTerminal = none

/-- What arms a Trigger. -/
inductive Arm (known : Actor → Prop) (origin : Origin) : View → View → Prop
  | arm {v : View} {trigger : ActiveTrigger} (hknown : known trigger.info.owner)
      (htrigger : v.activeTrigger = none)
      (hgate : validateAgentRunContext trigger.info.owner v.activeRun v.runContext = .ok ())
      (hnew : trigger.IsNew) :
      Arm known origin v
        (({ v with activeTrigger := some trigger } : View).record
          (.triggerArmed origin trigger))

/-- What starts work on the port. -/
inductive Start (known : Actor → Prop) : View → View → Prop
  | startRun {v : View} {run : RunInfo} {event : TimelineEvent}
      (hknown : known run.owner) (hrun : v.activeRun = none)
      (htrigger : v.activeTrigger = none) (hkind : event.kind = .runStarted)
      (hactor : event.actor = some run.owner) (hid : event.runId = some run.id)
      (hevent : v.IsEvent event) :
      Start known v
        (({ v with
          activeRun := some run
          runContext :=
            if run.owner.kind = .agent then some (SlotActor.freshRunContext run.id)
            else none } : View).emit event)
  | startMacro {v : View} (started : ActiveMacro) (hactive : v.activeMacro = none) :
      Start known v { v with activeMacro := some started }

/-- What concerns approvals and the context of a Run. -/
inductive Arrange : View → View → Prop
  | askApproval {v : View} {pending : PendingRunStartState} {event : TimelineEvent}
      (hpending : v.pendingRunStart = none) (hkind : event.kind = .runStartRequested)
      (happroval : event.approval = some pending.approval) (hevent : v.IsEvent event) :
      Arrange v (({ v with pendingRunStart := some pending } : View).emit event)
  | approve {v : View} {pending : PendingRunStartState} {event : TimelineEvent}
      (hpending : v.pendingRunStart = some pending)
      (hkind : event.kind = .runStartApproved)
      (happroval : event.approval = some pending.approval)
      (happrover : pending.approval.requiredApprover.kind = .human)
      (hevent : v.IsEvent event) :
      Arrange v (({ v with pendingRunStart := none } : View).emit event)
  | grantAtOnce {v : View} {approval : PendingRunStartApproval} {event : TimelineEvent}
      (hpending : v.pendingRunStart = none) (hkind : event.kind = .runStartApproved)
      (happroval : event.approval = some approval)
      (happrover : approval.requiredApprover = systemActor) (hevent : v.IsEvent event) :
      Arrange v (v.emit event)
  | acknowledge {v : View} {run : RunInfo} {context : RunContextState} {throughSeq : ℕ}
      (hrun : v.activeRun = some run) (hcontext : v.runContext = some context)
      (hid : context.runId = run.id)
      (hthrough : context.lastHumanCommandSeq.getD 0 ≤ throughSeq) :
      Arrange v
        (({ v with
          runContext := some { context with
            acknowledgedRevision := context.revision
            acknowledgedThroughSeq := some throughSeq } } : View).record
          (.contextAcknowledged run.id context.revision throughSeq))

/-- The port opens; its workers bring whatever they will deliver. -/
inductive Opening : View → View → Prop
  | openPort {v : View} (session : PortSession) (hport : v.port = none) :
      Opening v
        (({ v with
          port := some { tail := session.run.tail, stopped := false }
          portEvents := some session.run.queued } : View).record (.portOpened session))

/-- What the actor keeps for later turns. -/
inductive Keep : View → View → Prop
  /-- a change of the configuration, staged, taken back or in effect -/
  | configure {v : View} (config : SlotConfig) (transportProfile : Option TransportProfile)
      (modelProfile : Option ModelProfile) (pending : Option PendingReconfiguration) :
      Keep v
        { v with
          standing.config := config
          standing.transportProfile := transportProfile
          standing.modelProfile := modelProfile
          standing.pendingReconfiguration := pending }
  /-- the result of an executed write -/
  | remember {v : View} (requestId : Uuid) (cache : Table Uuid (CachedResult WriteFingerprint))
      (order : List Uuid)
      (hroom : v.standing.executedWriteIds.ids.card < v.standing.executedWriteIds.limit) :
      Keep v
        { v with
          standing.writeRequestCache := cache
          standing.writeRequestOrder := order
          standing.executedWriteIds.ids :=
            insert requestId v.standing.executedWriteIds.ids }

/-- A step of the actor, whose physical actions have allowed origins. -/
inductive SlotStep (known : Actor → Prop) (allowed : Origin → Prop) : View → View → Prop
  | routine {v w : View} (h : Routine v w) : SlotStep known allowed v w
  | opening {v w : View} (h : Opening v w) : SlotStep known allowed v w
  | wire {v w : View} {origin : Origin} (horigin : ∀ id kind, origin ≠ .trigger id kind)
      (hallowed : allowed origin) (h : Wire known origin v w) : SlotStep known allowed v w
  | arm {v w : View} {origin : Origin} (hallowed : allowed origin)
      (h : Arm known origin v w) : SlotStep known allowed v w
  | start {v w : View} (h : Start known v w) : SlotStep known allowed v w
  | arrange {v w : View} (h : Arrange v w) : SlotStep known allowed v w
  | keep {v w : View} (h : Keep v w) : SlotStep known allowed v w

/-- Zero or more steps. -/
abbrev Reaches (known : Actor → Prop) (allowed : Origin → Prop) : View → View → Prop :=
  Relation.ReflTransGen (SlotStep known allowed)

variable {known : Actor → Prop} {allowed : Origin → Prop}

theorem Reaches.trans {u v w : View} (huv : Reaches known allowed u v)
    (hvw : Reaches known allowed v w) : Reaches known allowed u w :=
  Relation.ReflTransGen.trans huv hvw

theorem Routinely.reaches {v w : View} (h : Routinely v w) : Reaches known allowed v w := by
  induction h with
  | refl => exact .refl
  | tail _ hstep ih => exact ih.tail (.routine hstep)

end SerialPlatform
