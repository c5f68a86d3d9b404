import SerialPlatform.SlotPort

/-!
# Executing requests

`execute` runs one request which passed its field checks, and a physical one
also its authorization and the idempotency caches.  The origin says on whose
behalf a physical action is done.
-/

namespace SerialPlatform

/-- What a request leaves and answers. -/
abbrev Executed := SlotActor × SlotResult

namespace SlotActor

/-- Refuses a request without any effect. -/
def refuse (s : SlotActor) (error : SlotError) : Executed := (s, .error error)

def answerWith (s : SlotActor) (result : CommandResult) : Executed := (s, .ok result)

def ensure (condition : Bool) (error : SlotError) : Except SlotError Unit :=
  if condition then .ok () else .error error

/-! ## Control -/

def emitLeaseRevoked (actor : Actor) (lease : ControlLease) (s : SlotActor) : SlotActor :=
  s.emit .controlRevoked .none [] (some actor) none [("lease", .lease lease)]

/-- A Human took the lease from its holder. -/
def takeOver (actor : Actor) (revoked granted : ControlLease) (s : SlotActor) :
    SlotActor :=
  let s := s.cancelPendingRunStart "Human control holder changed"
  let owned := s.trigger.activeTrigger.any fun trigger =>
    trigger.info.owner.id = revoked.owner.id
  let s := if owned then s.requestTriggerStop .controlLost none else s
  let s := s.abortRun "human takeover" (some revoked.owner)
  (s.emitLeaseRevoked actor revoked).emitControlGranted granted

def checkAcquire (actor : Actor) (mode : ControlMode) (s : SlotActor) :
    Except SlotError Unit := do
  ensure s.port.port.isSome .portOffline
  ensure (actor.kind ≠ .agent) .runStartActorKind
  ensure (mode ≠ .takeover || actor.kind = .human) (.control .notOwner)

def executeAcquire (actor : Actor) (mode : ControlMode) (ttlMs : ℕ) (s : SlotActor) :
    Executed :=
  match s.checkAcquire actor mode with
  | .error error => s.refuse error
  | .ok () =>
      let s := s.ask
      let acquired := s.authority.control.acquire actor mode ttlMs s.answer.wall s.now
        s.answer.uuid
      let s := s.setControl acquired.1
      match acquired.2 with
      | .granted lease => (s.emitControlGranted lease).answerWith (.controlGranted lease)
      | .alreadyHeld lease => s.answerWith (.controlGranted lease)
      | .busy _ => s.refuse (.control .busy)
      | .takenOver revoked granted =>
          (s.takeOver actor revoked granted).answerWith (.controlGranted granted)

def executeRenew (actor : Actor) (controlId : Uuid) (fence ttlMs : ℕ) (s : SlotActor) :
    Executed :=
  let s := s.ask
  let renewed := s.authority.control.renew actor.id controlId fence ttlMs s.answer.wall
    s.now
  match renewed.2 with
  | .error error => s.refuse (.control error)
  | .ok lease =>
      (s.setControl renewed.1).publishSnapshot.answerWith (.controlRenewed lease)

def executeRelease (actor : Actor) (controlId : Uuid) (fence : ℕ) (s : SlotActor) :
    Executed :=
  let s := s.ask
  let released := s.authority.control.release actor.id controlId fence s.now
  match released.2 with
  | .error error => s.refuse (.control error)
  | .ok outcome =>
      let s := s.setControl released.1
      let s := s.cancelPendingRunStart "Human control holder released control"
      let s := s.requestTriggerStop .controlLost none
      let s := s.abortRun "control released" (some actor)
      (s.emitRelease outcome .controlReleased).answerWith .controlReleased

/-- Generic acquire queueing is disabled; this is a harmless no-op. -/
def executeCancelAcquire (actor : Actor) (s : SlotActor) : Executed :=
  s.answerWith (.acquireCancelled (s.authority.control.cancel actor.id))

/-! ## Run starts -/

def runStartApproval (actor : Actor) (requestId : Uuid) (label : String)
    (metadata : JsonMap) (ttlMs : ℕ) (approver : Actor) (controlId : Uuid) (fence : ℕ)
    (requested expires : ℤ) (s : SlotActor) : PendingRunStartApproval where
  id := requestId
  port := s.config.port
  requester := actor
  requiredApprover := approver
  label := label
  metadata := metadata
  controlTtlMs := ttlMs
  daemonEpoch := s.daemonEpoch
  generation := s.port.generation
  expectedControlId := controlId
  expectedFence := fence
  requestedWallTimeNs := requested
  expiresWallTimeNs := expires

/-- An idle port is granted at once. -/
def grantRunStart (actor : Actor) (requestId : Uuid) (label : String)
    (metadata : JsonMap) (ttlMs : ℕ) (control : ControlState) (lease : ControlLease)
    (wallNow : ℤ) (s : SlotActor) : Executed :=
  let installed := (s.setControl control).installRun actor label metadata 1
  let run := installed.2
  let s := installed.1.emitControlGranted lease
  let s := s.emitRunStarted actor run
  let approval := s.runStartApproval actor requestId run.label run.metadata ttlMs
    systemActor lease.id lease.fence wallNow wallNow
  let s := s.emit .runStartApproved .none [] (some actor) none
    (approvalMetadata approval ++ [("run", .run run)])
  s.answerWith (.runStartGranted requestId lease run)

/-- The approval waits for the Human who holds the port. -/
def askRunStart (actor : Actor) (requestId : Uuid) (label : String)
    (metadata : JsonMap) (ttlMs : ℕ) (current : ControlLease) (now : ℕ) (wallNow : ℤ)
    (s : SlotActor) : Executed :=
  let timeout := s.authority.control.approvalTimeout
  let expires := satAddI64 wallNow (min (timeout : ℤ) i64Max)
  let approval := s.runStartApproval actor requestId label metadata ttlMs current.owner
    current.id current.fence wallNow expires
  let deadline := ControlState.monotonicDeadline s.authority.control.instantMax now timeout
  let s := { s with authority.pendingRunStart := some {
    approval := approval
    deadline := deadline
    requesterFingerprint := requesterFingerprint approval } }
  (s.emit .runStartRequested .none [] (some actor) none (approvalMetadata approval)).answerWith
    (.runStartPending approval)

def checkRequestRunStart (actor : Actor) (s : SlotActor) : Except SlotError Unit := do
  ensure s.macros.activeMacro.isNone .macroActive
  ensure (actor.kind = .agent) .runStartActorKind
  ensure s.port.port.isSome .portOffline
  ensure s.trigger.activeTrigger.isNone .triggerActive
  ensure s.authority.activeRun.isNone .runAlreadyActive

/-- A request meets a pending approval: its own one, or another one. -/
def answerPendingRunStart (actor : Actor) (requestId : Uuid) (label : String)
    (metadata : JsonMap) (ttlMs : ℕ) (pending : PendingRunStartState) (s : SlotActor) :
    Executed :=
  if pending.approval.id = requestId ∧ pending.approval.requester.id = actor.id then
    if Fingerprint.requestRunStart actor.id label metadata ttlMs ≠
        pending.requesterFingerprint then
      s.refuse .requestIdReused
    else
      s.answerWith (.runStartPending pending.approval)
  else
    s.refuse .runStartApprovalPending

def executeRequestRunStart (actor : Actor) (requestId : Uuid) (label : String)
    (metadata : JsonMap) (ttlMs : ℕ) (s : SlotActor) : Executed :=
  match s.checkRequestRunStart actor with
  | .error error => s.refuse error
  | .ok () =>
      match s.authority.pendingRunStart with
      | some pending => s.answerPendingRunStart actor requestId label metadata ttlMs pending
      | none =>
          let s := s.ask
          let now := s.now
          let wallNow := s.answer.wall
          match s.authority.control.currentLease with
          | none =>
              let granted := s.authority.control.grantIfIdle actor ttlMs wallNow now
                s.answer.uuid
              match granted.2 with
              | .error error => s.refuse (.control error)
              | .ok lease =>
                  s.grantRunStart actor requestId label metadata ttlMs granted.1 lease
                    wallNow
          | some current =>
              if current.owner.kind = .human then
                s.askRunStart actor requestId label metadata ttlMs current now wallNow
              else
                s.refuse (.control .busy)

/-- The pending approval which a decision names. -/
def findPendingRunStart (approvalId : Uuid) (s : SlotActor) :
    Except SlotError PendingRunStartApproval :=
  match s.authority.pendingRunStart with
  | none => .error (.runStartApprovalNotFound approvalId)
  | some pending =>
      if pending.approval.id ≠ approvalId then
        .error (.runStartApprovalNotFound approvalId)
      else
        .ok pending.approval

/-- Ends the pending approval with a decision of one of its parties. -/
def closeRunStart (kind : EventKind) (approval : PendingRunStartApproval) (actor : Actor)
    (result : CommandResult) (s : SlotActor) : Executed :=
  let s := { s with authority.pendingRunStart := none }
  let s := s.cacheRunStartTerminal approval result
  (s.emitRunStartTerminal kind approval (some actor) none).answerWith result

/-- The lease moved to the requester, so its Run starts. -/
def approveRunStart (actor : Actor) (approval : PendingRunStartApproval)
    (revoked lease : ControlLease) (s : SlotActor) : Executed :=
  let s := { s with authority.pendingRunStart := none }
  let installed := s.installRun approval.requester approval.label approval.metadata 2
  let run := installed.2
  let s := (installed.1.emitLeaseRevoked actor revoked).emitControlGranted lease
  let s := s.emitRunStarted approval.requester run
  let result := CommandResult.runStartGranted approval.id lease run
  let s := s.cacheRunStartTerminal approval result
  (s.emitRunStartTerminal .runStartApproved approval (some actor) (some run)).answerWith
    result

/-- Why an approval can no longer be granted. -/
def runStartObstacle (approval : PendingRunStartApproval) (s : SlotActor) :
    Option (String × SlotError) :=
  if s.port.port.isNone then
    some ("port_offline", .portOffline)
  else if approval.daemonEpoch ≠ s.daemonEpoch ∨
      approval.generation ≠ s.port.generation then
    some ("generation_changed", .generationMismatch)
  else if s.trigger.activeTrigger.isSome then
    some ("trigger_active", .triggerActive)
  else if s.authority.activeRun.isSome then
    some ("run_active", .runAlreadyActive)
  else
    none

def checkDecideRunStart (actor : Actor) (approvalId : Uuid) (s : SlotActor) :
    Except SlotError PendingRunStartApproval := do
  ensure (actor.kind = .human) .runStartActorKind
  let approval ← s.findPendingRunStart approvalId
  ensure (approval.requiredApprover.id = actor.id) .runStartApprovalNotApprover
  pure approval

def executeDecideRunStart (actor : Actor) (approvalId : Uuid)
    (decision : RunStartDecision) (s : SlotActor) : Executed :=
  match s.checkDecideRunStart actor approvalId with
  | .error error => s.refuse error
  | .ok approval =>
      match decision with
      | .deny =>
          s.closeRunStart .runStartDenied approval actor (.runStartDenied approvalId)
      | .approve =>
          match s.runStartObstacle approval with
          | some (reason, error) => (s.cancelPendingRunStart reason).refuse error
          | none =>
              let s := s.ask
              let transfer := s.authority.control.transferExact approval.requiredApprover.id
                approval.expectedControlId approval.expectedFence approval.requester
                approval.controlTtlMs s.answer.wall s.now s.answer.uuid
              match transfer.2 with
              | .error error =>
                  (s.cancelPendingRunStart "approval fence became stale").refuse
                    (.control error)
              | .ok (revoked, lease) =>
                  (s.setControl transfer.1).approveRunStart actor approval revoked lease

def checkCancelRunStart (actor : Actor) (approvalId : Uuid) (s : SlotActor) :
    Except SlotError PendingRunStartApproval := do
  let approval ← s.findPendingRunStart approvalId
  ensure (actor.kind = .agent && approval.requester.id = actor.id) .runStartActorKind
  pure approval

def executeCancelRunStart (actor : Actor) (approvalId : Uuid) (s : SlotActor) :
    Executed :=
  match s.checkCancelRunStart actor approvalId with
  | .error error => s.refuse error
  | .ok approval =>
      s.closeRunStart .runStartCancelled approval actor (.runStartCancelled approvalId)

/-! ## Runs -/

def checkStartRun (actor : Actor) (controlId : Uuid) (fence : ℕ) (s : SlotActor) :
    Except SlotError Unit := do
  ensure s.macros.activeMacro.isNone .macroActive
  ensure (actor.kind ≠ .agent) .runStartActorKind
  ensure s.trigger.activeTrigger.isNone .triggerActive
  discard (liftControl (s.authority.control.validate actor.id controlId fence s.now))
  ensure s.authority.activeRun.isNone .runAlreadyActive

def executeStartRun (actor : Actor) (controlId : Uuid) (fence : ℕ) (label : String)
    (metadata : JsonMap) (s : SlotActor) : Executed :=
  let s := s.ask
  match s.checkStartRun actor controlId fence with
  | .error error => s.refuse error
  | .ok () =>
      let run : RunInfo := {
        id := s.answer.uuid
        owner := actor
        label := label
        status := .active
        startSeq := s.nextSeq
        endSeq := none
        metadata := metadata }
      let s := { s with authority.activeRun := some run, authority.runContext := none }
      (s.emit .runStarted .none [] (some actor) none [("run", .run run)]).answerWith
        (.runStarted run)

def checkEndRun (actor : Actor) (controlId : Uuid) (fence : ℕ) (runId : Uuid)
    (s : SlotActor) : Except SlotError RunInfo := do
  ensure s.macros.activeMacro.isNone .macroActive
  discard (liftControl (s.authority.control.validate actor.id controlId fence s.now))
  match s.authority.activeRun with
  | none => throw .noActiveRun
  | some active =>
      ensure (active.id = runId) .runMismatch
      pure active

def executeEndRun (actor : Actor) (controlId : Uuid) (fence : ℕ) (runId : Uuid)
    (s : SlotActor) : Executed :=
  let s := s.ask
  match s.checkEndRun actor controlId fence runId with
  | .error error => s.refuse error
  | .ok active =>
      let s := s.requestTriggerStop .runLost none
      let s := { s with authority.activeRun := none, authority.runContext := none }
      let ended := { active with status := .completed, endSeq := some s.nextSeq }
      (s.emitRunClosed .runEnded ended (some actor) [("run", .run ended)]).answerWith
        (.runEnded ended)

def executeCheckpoint (actor : Actor) (controlId : Uuid) (fence : ℕ) (label : String)
    (s : SlotActor) : Executed :=
  let s := s.ask
  match liftControl (s.authority.control.validate actor.id controlId fence s.now) with
  | .error error => s.refuse error
  | .ok _ =>
      if s.authority.activeRun.isNone then
        s.refuse .noActiveRun
      else
        let seq := s.nextSeq
        (s.emit .checkpoint .none [] (some actor) none [("label", .str label)]).answerWith
          (.checkpointCreated seq)

/-- The context which an acknowledgement covers: exactly the current revision,
through the last Human TX and not beyond the timeline. -/
def checkAcknowledge (actor : Actor) (runId : Uuid) (revision throughSeq : ℕ)
    (s : SlotActor) : Except SlotError RunContextState := do
  ensure (actor.kind = .agent) (.control .notOwner)
  match s.authority.activeRun with
  | none => throw .noActiveRun
  | some run =>
      ensure (run.id = runId) .runMismatch
      ensure (run.owner.id = actor.id) (.control .notOwner)
      match s.authority.control.currentLease with
      | none => throw (.control .notOwner)
      | some lease =>
          ensure (lease.owner.id = actor.id) (.control .notOwner)
          discard (liftControl (s.authority.control.currentRemainingTtl s.now))
          match s.authority.runContext with
          | none => throw .runContextNotCovered
          | some context =>
              ensure (context.runId = runId && revision = context.revision &&
                context.lastHumanCommandSeq.getD 0 ≤ throughSeq &&
                throughSeq ≤ s.timeline.seq) .runContextNotCovered
              pure context

def executeAcknowledgeRunContext (actor : Actor) (runId : Uuid)
    (revision throughSeq : ℕ) (s : SlotActor) : Executed :=
  let s := s.ask
  match s.checkAcknowledge actor runId revision throughSeq with
  | .error error => s.refuse error
  | .ok context =>
      let context := { context with
        acknowledgedRevision := revision
        acknowledgedThroughSeq := some throughSeq }
      let s := { s with authority.runContext := some context }
      let s := s.record (.contextAcknowledged runId revision throughSeq)
      s.publishSnapshot.answerWith (.runContextAcknowledged context)

/-! ## Command captures -/

def captureError (reason : String) : SlotError := .invalidCommandCapture reason

/-- The replay which a capture report cites as evidence. -/
def captureEvidence (report : CommandCaptureReport) (s : SlotActor) :
    Except SlotError (List TimelineEvent) := do
  ensure (report.daemonEpoch = s.daemonEpoch) (captureError "daemon epoch changed")
  ensure (report.evidenceThroughSeq ≤ s.timeline.seq)
    (captureError "evidence cursor is ahead of the timeline")
  let cursor : Cursor :=
    { epoch := s.daemonEpoch, afterSeq := report.evidenceFromSeq - 1 }
  let replay ← (s.timeline.ring.replay s.daemonEpoch (some cursor)
    report.evidenceThroughSeq ringEvents).mapError fun error => captureError error.message
  match replay.gap with
  | some gap => throw (captureError ("timeline gap: " ++ gap.reason.debugName))
  | none =>
      ensure (!replay.events.any fun event => event.kind = .gap)
        (captureError "evidence crosses a receive gap")
      ensure (!replay.events.any fun event => event.generation ≠ report.generation)
        (captureError "evidence crosses a serial generation boundary")
      pure replay.events

def captureTx (actor : Actor) (report : CommandCaptureReport)
    (events : List TimelineEvent) : Except SlotError TimelineEvent :=
  match events.find? fun event => event.seq = report.txEventSeq with
  | none => .error (captureError "authoritative TX event is no longer available")
  | some tx =>
      if tx.kind ≠ .tx ∨ tx.direction ≠ .tx ∨ tx.generation ≠ report.generation ∨
          tx.runId ≠ some report.runId ∨ tx.operationId ≠ some report.operationId ∨
          ¬ tx.actor.any (fun owner => owner.id = actor.id) then
        .error (captureError "TX identity does not match actor, Run, and operation")
      else
        .ok tx

def checkCapture (actor : Actor) (report : CommandCaptureReport) (s : SlotActor) :
    Except SlotError (List TimelineEvent × TimelineEvent) := do
  ensure (actor.kind = .agent) (.control .notOwner)
  let events ← s.captureEvidence report
  let tx ← captureTx actor report events
  pure (events, tx)

def executeRecordCommandCapture (actor : Actor) (report : CommandCaptureReport)
    (s : SlotActor) : Executed :=
  match s.checkCapture actor report with
  | .error error => s.refuse error
  | .ok (events, tx) =>
      let rx := events.filter fun event => event.direction = .rx
      let capture : CommandCaptureCompleted := {
        daemonEpoch := report.daemonEpoch
        generation := report.generation
        runId := report.runId
        operationId := report.operationId
        txEventSeq := report.txEventSeq
        evidenceFromSeq := report.evidenceFromSeq
        evidenceThroughSeq := report.evidenceThroughSeq
        completion := report.completion
        completionDetail := report.completionDetail
        confidence := report.confidence
        recordEventSeq := s.nextSeq
        txStreamOffsetStart := tx.streamOffsetStart
        txStreamOffsetEnd := tx.streamOffsetEnd
        rxStreamOffsetStart := (rx.filterMap TimelineEvent.streamOffsetStart).min?
        rxStreamOffsetEnd := (rx.filterMap TimelineEvent.streamOffsetEnd).max? }
      let s := s.emitInner .commandCaptureCompleted .none [] (some actor)
        (some report.operationId) (some report.runId) [("capture", .capture capture)]
      s.answerWith (.commandCaptureRecorded capture)

end SlotActor
end SerialPlatform
