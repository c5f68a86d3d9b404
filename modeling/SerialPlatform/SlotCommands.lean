import SerialPlatform.ControlState
import SerialPlatform.EventRing

/-!
# Requests, results and errors of the port actor

The vocabulary in which clients, the registry and the macro driver talk to the
actor of one port.
-/

namespace SerialPlatform

/-! ## Errors and results -/

inductive SlotError where
  | closed
  | portOffline
  | partialWrite (written total generation : ℕ) (eventSeq : Option ℕ)
      (operationId : Option Uuid) (message : String)
  | writeOutcomeUncertain (operationId : Option Uuid) (message : String)
  | control (error : ControlError)
  | runAlreadyActive
  | noActiveRun
  | runMismatch
  | runStartActorKind
  | runStartApprovalNotFound (approvalId : Uuid)
  | runStartApprovalNotApprover
  | runStartApprovalPending
  | generationMismatch
  | userReadRequired (runId : Uuid) (revision lastHumanCommandSeq : ℕ)
  | runContextNotCovered
  | invalidCommandCapture (reason : String)
  | writeRunMissing (expectedRunId : Uuid)
  | writeRunMismatch (expectedRunId activeRunId : Uuid)
  | writeRunNotOwner (expectedRunId : Uuid)
  | cursorAhead
  | replyDropped
  | slotIdChanged
  | writeTooLarge
  | emptyWrite
  | invalidHumanLineInput
  | invalidCommandDescription
  | invalidCommandSequenceAudit
  | sequenceBoundaryChanged (reason : String)
  | writeDeadlineExceeded (requiredMs maximumMs : ℕ)
  | writeLeaseTooShort (remainingMs writeMs marginMs : ℕ)
  | requestIdReused
  | writeResultExpired
  | writeIdempotencyCapacity
  | invalidLabel
  | runMetadataTooManyKeys (actual : ℕ)
  | runMetadataTooLarge (actual : ℕ)
  | triggerActive
  | macroActive
  | macroNotFound (id : Uuid)
  | macroInvalid (message : String)
  | triggerNotFound (triggerId : Uuid)
  | triggerNotOwner (triggerId : Uuid)
  | triggerEpochMismatch
  | triggerGenerationMismatch
  | invalidTriggerAction
  | triggerInitialWriteTooLarge
  | invalidTriggerInterval
  | invalidTriggerTimeout
  | invalidTriggerMaxFires
  | invalidTriggerPatterns
  | triggerTotalBytesTooLarge
  | invalidBreakDuration
  | breakUnsupported
  | breakFailed (message : String)
  | profileChangeBusy
  deriving DecidableEq

/-- The results which the port actor produces. -/
inductive CommandResult where
  | controlGranted (lease : ControlLease)
  | runStartPending (approval : PendingRunStartApproval)
  | runStartGranted (approvalId : Uuid) (lease : ControlLease) (run : RunInfo)
  | runStartDenied (approvalId : Uuid)
  | runStartTimedOut (approvalId : Uuid)
  | runStartCancelled (approvalId : Uuid)
  | controlRenewed (lease : ControlLease)
  | controlReleased
  | acquireCancelled (removed : Bool)
  | humanCommandAccepted (eventSeq : ℕ) (mode : HumanCommandMode)
      (lease : Option ControlLease) (interferedRunId : Option Uuid)
      (contextRevision : Option ℕ)
  | writeAccepted (eventSeq : ℕ)
  | breakSent (eventSeq : ℕ)
  | macroStarted (execution : MacroExecutionInfo)
  | macroStatus (execution : MacroExecutionInfo)
  | macroCancelled (execution : MacroExecutionInfo)
  | triggerStarted (trigger : TriggerInfo)
  | triggerStatus (trigger : TriggerInfo)
  | triggerCancelled (trigger : TriggerInfo)
  | runStarted (run : RunInfo)
  | runEnded (run : RunInfo)
  | checkpointCreated (eventSeq : ℕ)
  | runContextAcknowledged (context : RunContextState)
  | commandCaptureRecorded (capture : CommandCaptureCompleted)

abbrev SlotResult := Except SlotError CommandResult

/-! ## Requests -/

inductive SlotRequest where
  | acquire (actor : Actor) (mode : ControlMode) (ttlMs : ℕ)
  | requestRunStart (actor : Actor) (requestId : Uuid) (label : String)
      (metadata : JsonMap) (ttlMs : ℕ)
  | decideRunStart (actor : Actor) (approvalId : Uuid) (decision : RunStartDecision)
  | cancelRunStart (actor : Actor) (approvalId : Uuid)
  | renew (actor : Actor) (controlId : Uuid) (fence ttlMs : ℕ)
  | release (actor : Actor) (controlId : Uuid) (fence : ℕ)
  | cancelAcquire (actor : Actor) (controlId : Uuid)
  | sendHumanCommand (actor : Actor) (expectedGeneration : ℕ) (data : Bytes)
      (operationId : Option Uuid) (description : Option String)
      (input : Option HumanLineInput)
  | write (actor : Actor) (controlId : Uuid) (fence : ℕ) (data : Bytes)
      (operationId expectedRunId : Option Uuid) (pacing : Option WritePacing)
      (description : Option String) (commandCaptureMatchers : List CommandCaptureMatcher)
      (commandSequence : Option CommandSequenceAuditContext)
      (sequencePrecondition : Option SequenceWritePrecondition) (cooperative : Bool)
  | sendBreak (actor : Actor) (controlId : Uuid) (fence durationMs : ℕ)
      (operationId expectedRunId : Option Uuid)
      (sequencePrecondition : Option SequenceWritePrecondition)
  | startTrigger (actor : Actor) (controlId : Uuid) (fence : ℕ) (daemonEpoch : Uuid)
      (generation : ℕ) (operationId expectedRunId : Option Uuid)
      (sequencePrecondition : Option SequenceWritePrecondition) (spec : TriggerSpec)
  | triggerStatus (actor : Actor) (daemonEpoch : Uuid) (generation : ℕ)
      (triggerId : Uuid)
  | cancelTrigger (actor : Actor) (controlId : Uuid) (fence : ℕ) (daemonEpoch : Uuid)
      (generation : ℕ) (triggerId : Uuid)
  | startRun (actor : Actor) (controlId : Uuid) (fence : ℕ) (label : String)
      (metadata : JsonMap)
  | endRun (actor : Actor) (controlId : Uuid) (fence : ℕ) (runId : Uuid)
  | checkpoint (actor : Actor) (controlId : Uuid) (fence : ℕ) (label : String)
  | acknowledgeRunContext (actor : Actor) (runId : Uuid) (revision throughSeq : ℕ)
  | recordCommandCapture (actor : Actor) (report : CommandCaptureReport)

def SlotRequest.actor : SlotRequest → Actor
  | .acquire actor .. => actor
  | .requestRunStart actor .. => actor
  | .decideRunStart actor .. => actor
  | .cancelRunStart actor .. => actor
  | .renew actor .. => actor
  | .release actor .. => actor
  | .cancelAcquire actor .. => actor
  | .sendHumanCommand actor .. => actor
  | .write actor .. => actor
  | .sendBreak actor .. => actor
  | .startTrigger actor .. => actor
  | .triggerStatus actor .. => actor
  | .cancelTrigger actor .. => actor
  | .startRun actor .. => actor
  | .endRun actor .. => actor
  | .checkpoint actor .. => actor
  | .acknowledgeRunContext actor .. => actor
  | .recordCommandCapture actor .. => actor

/-- The tuple of a physical action whose JSON encoding is its write fingerprint. -/
inductive WriteFingerprint where
  | sendHumanCommand (expectedGeneration : ℕ) (data : Bytes) (operationId : Option Uuid)
      (description : Option String) (input : Option HumanLineInput)
  | write (data : Bytes) (operationId expectedRunId : Option Uuid)
      (pacing : Option WritePacing) (description : Option String)
      (commandCaptureMatchers : List CommandCaptureMatcher)
      (commandSequence : Option CommandSequenceAuditContext)
      (sequencePrecondition : Option SequenceWritePrecondition) (cooperative : Bool)
  | triggerStart (daemonEpoch : Uuid) (generation : ℕ)
      (operationId expectedRunId : Option Uuid)
      (sequencePrecondition : Option SequenceWritePrecondition) (spec : TriggerSpec)
  | sendBreak (durationMs : ℕ) (operationId expectedRunId : Option Uuid)
      (sequencePrecondition : Option SequenceWritePrecondition)
  | macroStart (daemonEpoch : Uuid) (generation : ℕ) (expectedRunId : Option Uuid)
      (spec : JsonText)
  deriving DecidableEq

/-- The tuple of a request whose JSON encoding is its fingerprint. -/
inductive Fingerprint where
  | acquire (actorId : String) (mode : ControlMode) (ttlMs : ℕ)
  | requestRunStart (actorId label : String) (metadata : JsonMap) (ttlMs : ℕ)
  | decideRunStart (actorId : String) (approvalId : Uuid) (decision : RunStartDecision)
  | cancelRunStart (actorId : String) (approvalId : Uuid)
  | renew (actorId : String) (controlId : Uuid) (fence ttlMs : ℕ)
  | release (actorId : String) (controlId : Uuid) (fence : ℕ)
  | cancelAcquire (actorId : String) (controlId : Uuid)
  | sendHumanCommand (actorId : String) (action : WriteFingerprint)
  | physical (actorId : String) (controlId : Uuid) (fence : ℕ) (action : WriteFingerprint)
  | triggerStatus (actorId : String) (daemonEpoch : Uuid) (generation : ℕ)
      (triggerId : Uuid)
  | triggerCancel (actorId : String) (controlId : Uuid) (fence : ℕ)
      (daemonEpoch : Uuid) (generation : ℕ) (triggerId : Uuid)
  | startRun (actorId : String) (controlId : Uuid) (fence : ℕ) (label : String)
      (metadata : JsonMap)
  | endRun (actorId : String) (controlId : Uuid) (fence : ℕ) (runId : Uuid)
  | checkpoint (actorId : String) (controlId : Uuid) (fence : ℕ) (label : String)
  | acknowledgeRunContext (actorId : String) (runId : Uuid) (revision throughSeq : ℕ)
  | recordCommandCapture (actorId : String) (report : CommandCaptureReport)
  deriving DecidableEq

/-- Fields which describe the intended physical write.  Actor, lease id and
fence are left out: they change after a reconnect. -/
def SlotRequest.writeFingerprint : SlotRequest → Option WriteFingerprint
  | .sendHumanCommand _ expectedGeneration data operationId description input =>
      some (.sendHumanCommand expectedGeneration data operationId description input)
  | .write _ _ _ data operationId expectedRunId pacing description commandCaptureMatchers
      commandSequence sequencePrecondition cooperative =>
      some (.write data operationId expectedRunId pacing description
        commandCaptureMatchers commandSequence sequencePrecondition cooperative)
  | .startTrigger _ _ _ daemonEpoch generation operationId expectedRunId
      sequencePrecondition spec =>
      some (.triggerStart daemonEpoch generation operationId expectedRunId
        sequencePrecondition spec)
  | .sendBreak _ _ _ durationMs operationId expectedRunId sequencePrecondition =>
      some (.sendBreak durationMs operationId expectedRunId sequencePrecondition)
  | _ => none

def SlotRequest.fingerprint : SlotRequest → Fingerprint
  | .acquire actor mode ttlMs => .acquire actor.id mode ttlMs
  | .requestRunStart actor _ label metadata ttlMs =>
      .requestRunStart actor.id label metadata ttlMs
  | .decideRunStart actor approvalId decision =>
      .decideRunStart actor.id approvalId decision
  | .cancelRunStart actor approvalId => .cancelRunStart actor.id approvalId
  | .renew actor controlId fence ttlMs => .renew actor.id controlId fence ttlMs
  | .release actor controlId fence => .release actor.id controlId fence
  | .cancelAcquire actor controlId => .cancelAcquire actor.id controlId
  | .sendHumanCommand actor expectedGeneration data operationId description input =>
      .sendHumanCommand actor.id
        (.sendHumanCommand expectedGeneration data operationId description input)
  | .write actor controlId fence data operationId expectedRunId pacing description
      commandCaptureMatchers commandSequence sequencePrecondition cooperative =>
      .physical actor.id controlId fence
        (.write data operationId expectedRunId pacing description
          commandCaptureMatchers commandSequence sequencePrecondition cooperative)
  | .sendBreak actor controlId fence durationMs operationId expectedRunId
      sequencePrecondition =>
      .physical actor.id controlId fence
        (.sendBreak durationMs operationId expectedRunId sequencePrecondition)
  | .startTrigger actor controlId fence daemonEpoch generation operationId expectedRunId
      sequencePrecondition spec =>
      .physical actor.id controlId fence
        (.triggerStart daemonEpoch generation operationId expectedRunId
          sequencePrecondition spec)
  | .triggerStatus actor daemonEpoch generation triggerId =>
      .triggerStatus actor.id daemonEpoch generation triggerId
  | .cancelTrigger actor controlId fence daemonEpoch generation triggerId =>
      .triggerCancel actor.id controlId fence daemonEpoch generation triggerId
  | .startRun actor controlId fence label metadata =>
      .startRun actor.id controlId fence label metadata
  | .endRun actor controlId fence runId => .endRun actor.id controlId fence runId
  | .checkpoint actor controlId fence label =>
      .checkpoint actor.id controlId fence label
  | .acknowledgeRunContext actor runId revision throughSeq =>
      .acknowledgeRunContext actor.id runId revision throughSeq
  | .recordCommandCapture actor report => .recordCommandCapture actor.id report

/-- A result is retained under its request id once the port may have been touched. -/
def isCacheableWriteResult : SlotResult → Bool
  | .ok (.writeAccepted _) => true
  | .ok (.humanCommandAccepted ..) => true
  | .ok (.breakSent _) => true
  | .ok (.triggerStarted _) => true
  | .error (.partialWrite ..) => true
  | .error (.writeOutcomeUncertain ..) => true
  | .error (.breakFailed _) => true
  | _ => false

end SerialPlatform
