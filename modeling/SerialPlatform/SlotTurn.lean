import SerialPlatform.SlotReconfigure

/-!
# The turns of a port actor

The actor takes one input at a time: a command, an event of its port, a write
result, an acknowledgement, a timer.  A run is a list of inputs.
-/

namespace SerialPlatform

inductive SlotCommand where
  | request (requestId : Uuid) (request : SlotRequest)
  | macroCommand (command : MacroCommand)
  | disconnect (actorId : String)
  | stageReconfiguration (config : SlotConfig)
      (transportProfile : Option TransportProfile) (modelProfile : Option ModelProfile)
      (source : String) (resumeOnRollback : Bool)
  | stageModelProfile (modelProfile : Option ModelProfile)
  | stageRemoval (source : String)
  | commitStagedReconfiguration
  | rollbackStagedReconfiguration
  | shutdown

/-- A Run-start request is pending under the id of its command. -/
def SlotRequest.withRequestId (requestId : Uuid) : SlotRequest → SlotRequest
  | .requestRunStart actor _ label metadata ttlMs =>
      .requestRunStart actor requestId label metadata ttlMs
  | request => request

namespace SlotActor

/-! ## Commands -/

def reply (key : String × Uuid) (result : SlotResult) (s : SlotActor) : SlotActor :=
  s.record (.reply key result)

/-- A physical action: authorized against the current lease and Run first, then
looked up, then executed at most once for its id. -/
def handlePhysical (key : String × Uuid) (request : SlotRequest)
    (fingerprint : WriteFingerprint) (s : SlotActor) : SlotActor :=
  let s := s.expireControl.ask
  match request.validateWriteAuthorization s.authority.control s.authority.activeRun
      s.authority.runContext s.port.generation s.now with
  | .error error => s.reply key (.error error)
  | .ok () =>
      match s.caches.writeRequestCache key.2 with
      | some cached =>
          s.reply key
            (if cached.fingerprint = fingerprint then cached.result
              else .error .requestIdReused)
      | none =>
          match s.caches.executedWriteIds.wasExecutedOrReserveable key.2 with
          | .error error => s.reply key (.error error)
          | .ok true => s.reply key (.error .writeResultExpired)
          | .ok false =>
              let executed := s.execute (.request key.2) request
              let s :=
                if isCacheableWriteResult executed.2 then
                  executed.1.cacheWriteResult key.2 fingerprint executed.2
                else
                  executed.1
              s.reply key executed.2

/-- Any other request: a repeated one gets its cached result. -/
def handleLogical (key : String × Uuid) (request : SlotRequest) (s : SlotActor) :
    SlotActor :=
  let fingerprint := request.fingerprint
  match s.caches.requestCache key with
  | some cached =>
      s.reply key
        (if cached.fingerprint = fingerprint then cached.result
          else .error .requestIdReused)
  | none =>
      let executed := s.execute (.request key.2) request
      (executed.1.cacheResult key fingerprint executed.2).reply key executed.2

def handleRequest (requestId : Uuid) (request : SlotRequest) (s : SlotActor) :
    SlotActor :=
  let request := request.withRequestId requestId
  let key := (request.actor.id, requestId)
  match request.validateBusinessFields with
  | .error error => s.reply key (.error error)
  | .ok () =>
      let s := s.expirePendingRunStart
      match request.writeFingerprint with
      | some fingerprint => s.handlePhysical key request fingerprint
      | none => s.handleLogical key request

def adminReply (done : SlotActor × Except SlotError Bool) : SlotActor × Bool :=
  (done.1.record (.adminReply done.2), false)

/-- Handles one command; says whether the actor ends. -/
def handleCommand (command : SlotCommand) (s : SlotActor) : SlotActor × Bool :=
  match command with
  | .macroCommand command => (s.handleMacroCommand command, false)
  | .request requestId request => (s.handleRequest requestId request, false)
  | .disconnect actorId => (s.handleDisconnect actorId, false)
  | .stageReconfiguration config transportProfile modelProfile source resumeOnRollback =>
      adminReply (s.stageReconfiguration config transportProfile modelProfile source
        resumeOnRollback)
  | .stageModelProfile modelProfile => adminReply (s.stageModelProfile modelProfile)
  | .stageRemoval source => adminReply (s.stageRemoval source)
  | .commitStagedReconfiguration => adminReply s.commitStagedReconfiguration
  | .rollbackStagedReconfiguration => adminReply s.rollbackStagedReconfiguration
  | .shutdown => (s.prepareShutdown.record (.adminReply (.ok true)), true)

/-! ## The Trigger timer -/

/-- How a drain of a queue ended. -/
inductive Drained where
  /-- the queue is empty -/
  | empty
  /-- the turn is over -/
  | finished
  /-- the actor ends -/
  | stopped
  deriving DecidableEq

/-- The RX which is queued before a due write.  A drain which used up its bound
ends the turn. -/
def drainQueuedPortEvents : ℕ → SlotActor → SlotActor × Drained
  | 0, s => (s, .finished)
  | bound + 1, s =>
      match s.port.portEvents with
      | none => (s, .empty)
      | some _ =>
          let s := s.ask
          if s.answer.ready then
            match s.receivePortEvent with
            | (s, none) => (s.handlePortClosed "serial worker stopped", .finished)
            | (s, some event) =>
                let s := s.handlePortEvent event
                if s.trigger.activeTrigger.isNone then (s, .finished)
                else drainQueuedPortEvents bound s
          else
            (s, .empty)

/-- The commands which are queued before a due write. -/
def drainQueuedCommands (disconnected : Bool) :
    ℕ → List SlotCommand → SlotActor → SlotActor × Drained
  | 0, _, s => (s, .finished)
  | _ + 1, [], s =>
      if disconnected then (s.requestTriggerStop .portClosed none, .stopped)
      else (s, .empty)
  | bound + 1, command :: queued, s =>
      let handled := s.handleCommand command
      if handled.2 then (handled.1, .stopped)
      else if handled.1.trigger.activeTrigger.isNone then (handled.1, .finished)
      else drainQueuedCommands disconnected bound queued handled.1

/-- What the timer does once both queues are empty. -/
def fireTriggerTimer (s : SlotActor) : SlotActor :=
  let s := s.expireControl.ask
  match s.trigger.activeTrigger with
  | none => s
  | some trigger =>
      if trigger.pendingTerminal.isSome then
        s.finishStoppedTriggerIfIdle
      else if trigger.deadline ≤ s.now then
        s.requestTriggerStop trigger.deadlineStatus none
      else if s.triggerWriteIsDue then
        s.beginTriggerWrite
      else
        s

def handleTriggerTimer (queued : List SlotCommand) (disconnected : Bool)
    (s : SlotActor) : SlotActor × Bool :=
  match s.drainQueuedPortEvents portEventQueue with
  | (s, .empty) =>
      match s.drainQueuedCommands disconnected commandQueue queued with
      | (s, .empty) => (s.fireTriggerTimer, false)
      | (s, .finished) => (s, false)
      | (s, .stopped) => (s, true)
  | (s, _) => (s, false)

/-! ## Maintenance -/

def silenceTarget (s : SlotActor) : SlotActor :=
  let s := s.ask
  if s.port.targetActivity = .active &&
      s.port.lastRxInstant.any fun last => activeWindow ≤ s.now - last then
    (s.setPort { s.port with targetActivity := .silent }).publishSnapshot
  else
    s

def maintain (s : SlotActor) : SlotActor :=
  let s := s.reapMacro.expireControl.expirePendingRunStart.silenceTarget.ask
  if s.port.port.isNone && !s.port.administrativelyPaused && s.config.enabled &&
      s.effectiveSerialSettings.autoOpen && s.port.retryAt ≤ s.now then
    s.tryOpen
  else
    s

/-! ## The loop -/

inductive TurnInput where
  | command (command : SlotCommand)
  | portEvent
  | triggerWriteResult
  /-- the forwarding task of one acknowledgement delivers its next result -/
  | journalAck (index : ℕ)
  /-- the Trigger timer, with the commands which are queued behind it -/
  | triggerTimer (queued : List SlotCommand) (disconnected : Bool)
  | maintenance
  | macroProgress (progress : MacroProgress)
  /-- every handle of the actor is gone -/
  | hangup

def takePortEvent (s : SlotActor) : SlotActor :=
  if s.port.portEvents.isNone then
    s
  else
    match s.receivePortEvent with
    | (s, some event) => s.handlePortEvent event
    | (s, none) =>
        if s.port.port.isSome then s.handlePortClosed "serial worker stopped" else s

def takeJournalAck (index : ℕ) (s : SlotActor) : SlotActor :=
  let s := s.ask
  match s.timeline.pendingAcks[index]? with
  | none => s
  | some pending =>
      match pending.outcomes with
      | [] => s
      | outcome :: rest =>
          let remaining :=
            if rest = [] then s.timeline.pendingAcks.eraseIdx index
            else s.timeline.pendingAcks.set index { pending with outcomes := rest }
          { s with timeline.pendingAcks := remaining }.handleJournalAckResult pending.seq
            outcome

def takeTriggerTimer (queued : List SlotCommand) (disconnected : Bool) (s : SlotActor) :
    SlotActor × Bool :=
  let s := s.ask
  match s.trigger.activeTrigger.bind ActiveTrigger.nextDeadline with
  | none => (s, false)
  | some deadline =>
      if deadline ≤ s.now then s.handleTriggerTimer queued disconnected else (s, false)

/-- One turn of the select loop; says whether the loop ends. -/
def turn (input : TurnInput) (s : SlotActor) : SlotActor × Bool :=
  match input with
  | .command command => s.handleCommand command
  | .portEvent => (s.takePortEvent, false)
  | .triggerWriteResult => (s.receiveTriggerWriteResult, false)
  | .journalAck index => (s.takeJournalAck index, false)
  | .triggerTimer queued disconnected => s.takeTriggerTimer queued disconnected
  | .maintenance => (s.maintain, false)
  | .macroProgress progress => (s.macroProgress progress, false)
  | .hangup => (s, true)

/-- What follows the select loop. -/
def windDown (s : SlotActor) : SlotActor :=
  let s := s.requestTriggerStop .portClosed none
  let s := s.stopPort.settleTriggerWriteAfterPortStop
  (s.setPort { s.port with sessionState := .disabled }).publishSnapshot

/-- What precedes the select loop. -/
def start (s : SlotActor) : SlotActor :=
  if !s.config.enabled || !s.effectiveSerialSettings.autoOpen then
    (s.setPort { s.port with sessionState := .disabled }).publishSnapshot
  else
    s

/-- The run of an actor over its inputs; nothing follows the end of its loop. -/
def run : List TurnInput → SlotActor → SlotActor
  | [], s => s
  | input :: inputs, s =>
      match s.turn input with
      | (s, false) => run inputs s
      | (s, true) => s.windDown

end SlotActor
end SerialPlatform
