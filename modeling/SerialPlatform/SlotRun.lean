import SerialPlatform.SlotTrigger

/-!
# Control, Runs and approvals

Losing the lease ends whatever depended on it: the pending Run-start approval,
the Trigger, the macro and the Run.
-/

namespace SerialPlatform
namespace SlotActor

/-! ## Result caches -/

def cacheResult (key : String × Uuid) (fingerprint : Fingerprint) (result : SlotResult)
    (s : SlotActor) : SlotActor :=
  if (s.caches.requestCache key).isSome then
    s
  else
    let order := s.caches.requestOrder ++ [key]
    let cache := s.caches.requestCache.insert key
      { fingerprint := fingerprint, result := result }
    let excess := order.length - idempotencyEntries
    { s with
      caches.requestOrder := order.drop excess
      caches.requestCache := (order.take excess).foldl Table.remove cache }

/-- An id which is executed is never evicted from the executed ids. -/
def cacheWriteResult (requestId : Uuid) (fingerprint : WriteFingerprint)
    (result : SlotResult) (s : SlotActor) : SlotActor :=
  if (s.caches.writeRequestCache requestId).isSome then
    s
  else
    let order := s.caches.writeRequestOrder ++ [requestId]
    let cache := s.caches.writeRequestCache.insert requestId
      { fingerprint := fingerprint, result := result }
    let excess := order.length - idempotencyEntries
    { s with
      caches.executedWriteIds.ids := insert requestId s.caches.executedWriteIds.ids
      caches.writeRequestOrder := order.drop excess
      caches.writeRequestCache := (order.take excess).foldl Table.remove cache }

end SlotActor

/-- Whether a request was executed although its result fell out of the cache. -/
def ExecutedWriteIds.wasExecutedOrReserveable (executed : ExecutedWriteIds)
    (requestId : Uuid) : Except SlotError Bool :=
  if requestId ∈ executed.ids then
    .ok true
  else if executed.limit ≤ executed.ids.card then
    .error .writeIdempotencyCapacity
  else
    .ok false

namespace SlotActor

/-! ## Macros -/

/-- The first stop reason stays. -/
def stopMacro (status : MacroStatus) (message : String) (s : SlotActor) : SlotActor :=
  match s.macros.activeMacro with
  | none => s
  | some active =>
      if active.stop.isSome then
        s
      else
        { s with
          macros.activeMacro := some { active with
            stop := some { status := status, message := message }
            info.status := .stopping
            info.message := some message } }

/-! ## Runs -/

def requesterFingerprint (approval : PendingRunStartApproval) : Fingerprint :=
  .requestRunStart approval.requester.id approval.label approval.metadata
    approval.controlTtlMs

/-- The context in which an Agent Run starts: nothing to acknowledge. -/
def freshRunContext (runId : Uuid) : RunContextState where
  runId := runId
  revision := 0
  lastHumanCommandSeq := none
  acknowledgedRevision := 0
  acknowledgedThroughSeq := none

def installRun (actor : Actor) (label : String) (metadata : JsonMap)
    (eventsBeforeStart : ℕ) (s : SlotActor) : SlotActor × RunInfo :=
  let s := s.ask
  let run : RunInfo := {
    id := s.answer.uuid
    owner := actor
    label := label
    status := .active
    startSeq := satAdd u64Max (satAdd u64Max s.timeline.seq eventsBeforeStart) 1
    endSeq := none
    metadata := metadata }
  ({ s with
      authority.activeRun := some run
      authority.runContext :=
        if actor.kind = .agent then some (freshRunContext run.id) else none }, run)

def emitRunStarted (actor : Actor) (run : RunInfo) (s : SlotActor) : SlotActor :=
  s.emitInner .runStarted .none [] (some actor) none (some run.id) [("run", .run run)]

/-- `RunAborted` and `RunEnded` of the Run which was taken. -/
def emitRunClosed (kind : EventKind) (run : RunInfo) (actor : Option Actor)
    (metadata : Metadata) (s : SlotActor) : SlotActor :=
  s.emitWithRun kind (some run.id) actor metadata

/-- The Trigger ends with the active Run. -/
def triggerBoundToRun (s : SlotActor) : Bool :=
  match s.authority.activeRun, s.trigger.activeTrigger with
  | some run, some trigger => trigger.boundRunId = some run.id
  | _, _ => false

def abortRun (reason : String) (actor : Option Actor) (s : SlotActor) : SlotActor :=
  let s := s.stopMacro .cancelled reason
  let s := if s.triggerBoundToRun then s.requestTriggerStop .runLost none else s
  match s.authority.activeRun with
  | none => { s with authority.runContext := none }
  | some run =>
      let run := { run with status := .aborted, endSeq := some s.nextSeq }
      let s := { s with authority.activeRun := none, authority.runContext := none }
      s.emitRunClosed .runAborted run (some (actor.getD systemActor))
        [("reason", .str reason), ("run", .run run)]

/-! ## Run-start approvals -/

/-- Replaces the pending answer of the requester, or caches the terminal one. -/
def cacheRunStartTerminal (approval : PendingRunStartApproval) (result : CommandResult)
    (s : SlotActor) : SlotActor :=
  let key := (approval.requester.id, approval.id)
  let fingerprint := requesterFingerprint approval
  match s.caches.requestCache key with
  | some cached =>
      if cached.fingerprint = fingerprint then
        { s with
          caches.requestCache := s.caches.requestCache.insert key
            { cached with result := .ok result } }
      else
        s
  | none => s.cacheResult key fingerprint (.ok result)

def approvalMetadata (approval : PendingRunStartApproval) : Metadata :=
  [("approval_id", .uuid approval.id), ("approval", .approval approval)]

def emitRunStartTerminal (kind : EventKind) (approval : PendingRunStartApproval)
    (actor : Option Actor) (run : Option RunInfo) (s : SlotActor) : SlotActor :=
  s.emitInner kind .none [] actor none (run.map RunInfo.id)
    (approvalMetadata approval ++
      match run with
      | some run => [("run", .run run)]
      | none => [])

def expirePendingRunStart (s : SlotActor) : SlotActor :=
  let s := s.ask
  match s.authority.pendingRunStart with
  | none => s
  | some pending =>
      if s.now < pending.deadline then
        s
      else
        let s := { s with authority.pendingRunStart := none }
        let s := s.cacheRunStartTerminal pending.approval
          (.runStartTimedOut pending.approval.id)
        s.emitRunStartTerminal .runStartTimedOut pending.approval (some systemActor) none

def cancelPendingRunStart (reason : String) (s : SlotActor) : SlotActor :=
  match s.authority.pendingRunStart with
  | none => s
  | some pending =>
      let s := { s with authority.pendingRunStart := none }
      let s := s.cacheRunStartTerminal pending.approval
        (.runStartCancelled pending.approval.id)
      s.emitInner .runStartCancelled .none [] (some systemActor) none none
        (approvalMetadata pending.approval ++
          [("reason", .str reason), ("cancelled_by", .str "system")])

def cancelPendingForDisconnect (actorId : String) (s : SlotActor) : SlotActor :=
  match s.authority.pendingRunStart with
  | none => s
  | some pending =>
      if pending.approval.requester.id = actorId ∨
          pending.approval.requiredApprover.id = actorId then
        s.cancelPendingRunStart "requester_or_approver_disconnected"
      else
        s

/-! ## Control -/

def setControl (s : SlotActor) (control : ControlState) : SlotActor :=
  { s with authority.control := control }

def emitControlGranted (lease : ControlLease) (s : SlotActor) : SlotActor :=
  s.emit .controlGranted .none [] (some lease.owner) none [("lease", .lease lease)]

def emitRelease (outcome : ReleaseOutcome) (kind : EventKind) (s : SlotActor) :
    SlotActor :=
  let s := s.emit kind .none [] (some outcome.released.owner) none []
  match outcome.promoted with
  | some promoted => s.emitControlGranted promoted
  | none => s

def expireControl (s : SlotActor) : SlotActor :=
  let s := s.ask
  match s.authority.control.expire s.now with
  | (_, none) => s
  | (control, some released) =>
      let s := s.setControl control
      let s := s.cancelPendingRunStart "Human control approval lease expired"
      let s := s.requestTriggerStop .controlLost none
      let s := s.abortRun "control lease expired" (some released.released.owner)
      s.emitRelease released .controlExpired

/-- What ends with a revoked or released lease. -/
def dropLease (reason : String) (kind : EventKind) (released : Option ReleaseOutcome)
    (s : SlotActor) : SlotActor :=
  match released with
  | some released =>
      (s.abortRun reason (some released.released.owner)).emitRelease released kind
  | none => s

/-- The generation changed: the lease, the pending approval and the Run end. -/
def loseControl (pendingReason runReason : String) (s : SlotActor) : SlotActor :=
  let s := s.ask
  let changed := s.authority.control.changeGeneration s.port.generation
  let s := s.setControl changed.1
  let s := s.cancelPendingRunStart pendingReason
  match changed.2 with
  | some released =>
      (s.abortRun runReason (some released.released.owner)).emitRelease released
        .controlRevoked
  | none => s.abortRun runReason none

def handleDisconnect (actorId : String) (s : SlotActor) : SlotActor :=
  let owned := s.trigger.activeTrigger.any fun trigger => trigger.info.owner.id = actorId
  let s := if owned then s.requestTriggerStop .controlLost none else s
  let s := s.ask
  let disconnected := s.authority.control.disconnect actorId
  let s := s.setControl disconnected.1
  let s := s.cancelPendingForDisconnect actorId
  s.dropLease "controlling client disconnected" .controlReleased disconnected.2

end SlotActor
end SerialPlatform
