import SerialPlatform.JsonText
import SerialPlatform.SlotState
import SerialPlatform.TextFields

/-!
# Checks on requests

The pure checks which a request meets before the actor acts on it: its fields,
the Run and the lease it names, and the timeline boundary it depends on.
-/

namespace SerialPlatform

def liftControl {α : Type} : Except ControlError α → Except SlotError α :=
  Except.mapError SlotError.control

/-! ## Runs -/

def validateExpectedWriteRun (expectedRunId : Option Uuid) (actor : Actor)
    (activeRun : Option RunInfo) : Except SlotError Unit :=
  match expectedRunId, activeRun with
  | none, _ => .ok ()
  | some expectedRunId, none => .error (.writeRunMissing expectedRunId)
  | some expectedRunId, some activeRun =>
      if activeRun.id ≠ expectedRunId then
        .error (.writeRunMismatch expectedRunId activeRun.id)
      else if activeRun.owner.id ≠ actor.id then
        .error (.writeRunNotOwner expectedRunId)
      else
        .ok ()

/-- Human intervention in an Agent Run must be read before the Agent acts again. -/
def validateAgentRunContext (actor : Actor) (activeRun : Option RunInfo)
    (runContext : Option RunContextState) : Except SlotError Unit :=
  if actor.kind ≠ .agent then
    .ok ()
  else
    match activeRun, runContext with
    | some run, some context =>
        if run.owner.id ≠ actor.id ∨ context.runId ≠ run.id then
          .ok ()
        else if context.acknowledgedRevision < context.revision then
          .error (.userReadRequired run.id context.revision
            (context.lastHumanCommandSeq.getD 0))
        else
          .ok ()
    | _, _ => .ok ()

/-- Cooperative writes never borrow the Agent's fence and never transfer
ownership. -/
def validateCooperativeWrite (actor : Actor) (expectedRunId : Option Uuid)
    (control : ControlState) (activeRun : Option RunInfo) : Except SlotError Unit :=
  if actor.kind ≠ .human then
    .error (.control .notOwner)
  else
    match expectedRunId, control.currentLease, activeRun with
    | none, _, _ => .error (.control .notOwner)
    | some _, none, _ => .error (.control .notOwner)
    | some expectedRunId, some _, none => .error (.writeRunMissing expectedRunId)
    | some expectedRunId, some lease, some run =>
        if run.id ≠ expectedRunId then
          .error (.writeRunMismatch expectedRunId run.id)
        else if lease.owner.kind ≠ .agent ∨ run.owner.kind ≠ .agent ∨
            lease.owner.id ≠ run.owner.id then
          .error (.control .notOwner)
        else
          .ok ()

/-! ## Fields -/

def maxCommandDescriptionBytes : ℕ := 256
def maxCommandCaptureDetailBytes : ℕ := 4 * 1024
def maxCommandCaptureMatchers : ℕ := 8
def minBreakDurationMs : ℕ := 1
def maxBreakDurationMs : ℕ := 5000
def maxTriggerInitialWriteBytes : ℕ := 4 * 1024
def maxTriggerActionBytes : ℕ := 256
def maxTriggerPatternBytes : ℕ := 256
def maxTriggerPatterns : ℕ := 8
def minTriggerIntervalMs : ℕ := 5
def maxTriggerIntervalMs : ℕ := 1000
def minTriggerTimeoutMs : ℕ := 100
def maxTriggerTimeoutMs : ℕ := 30000
def maxTriggerFires : ℕ := 1000
def maxTriggerTotalBytes : ℕ := 64 * 1024

def validateLabel (label : String) : Except SlotError Unit :=
  if isBadText maxLabelBytes label then .error .invalidLabel else .ok ()

def validateCommandDescription (description : String) : Except SlotError Unit :=
  if isBadText maxCommandDescriptionBytes description then
    .error .invalidCommandDescription
  else
    .ok ()

def validateCommandCaptureMatchers (matchers : List CommandCaptureMatcher) :
    Except SlotError Unit :=
  if maxCommandCaptureMatchers < matchers.length then
    .error (.invalidCommandCapture
      "command_capture_matchers contains more than 8 entries")
  else if matchers.any fun matcher =>
      matcher.value.isEmpty || maxCommandCaptureDetailBytes < matcher.value.utf8ByteSize then
    .error (.invalidCommandCapture
      "command_capture_matcher values must be non-empty and at most 4096 UTF-8 bytes")
  else
    .ok ()

def validateCommandSequenceAudit (audit : CommandSequenceAuditContext) :
    Except SlotError Unit :=
  if audit.sequenceId = 0 ∨ isBadText maxCommandDescriptionBytes audit.description ∨
      audit.stepCount < 1 ∨ 8 < audit.stepCount ∨ audit.stepCount ≤ audit.stepIndex then
    .error .invalidCommandSequenceAudit
  else
    .ok ()

def validateTriggerSpec (spec : TriggerSpec) : Except SlotError Unit :=
  if spec.action = [] ∨ maxTriggerActionBytes < spec.action.length then
    .error .invalidTriggerAction
  else if spec.initialWrite = some [] then
    .error .emptyWrite
  else if maxTriggerInitialWriteBytes < (spec.initialWrite.map List.length).getD 0 then
    .error .triggerInitialWriteTooLarge
  else if spec.intervalMs < minTriggerIntervalMs ∨ maxTriggerIntervalMs < spec.intervalMs then
    .error .invalidTriggerInterval
  else if spec.timeoutMs < minTriggerTimeoutMs ∨ maxTriggerTimeoutMs < spec.timeoutMs then
    .error .invalidTriggerTimeout
  else if spec.maxFires < 1 ∨ maxTriggerFires < spec.maxFires then
    .error .invalidTriggerMaxFires
  else if maxTriggerPatterns < spec.stopContains.length ∨
      (spec.startContains.toList ++ spec.stopContains).any fun pattern =>
        pattern.isEmpty || maxTriggerPatternBytes < pattern.length then
    .error .invalidTriggerPatterns
  else if maxTriggerTotalBytes <
      (spec.initialWrite.map List.length).getD 0 + spec.action.length * spec.maxFires then
    .error .triggerTotalBytesTooLarge
  else
    .ok ()

def writeDeadlineOrError (totalBytes : ℕ) (pacing : WritePacing) : Except SlotError ℕ :=
  (writeDeadline totalBytes pacing.chunkSize pacing.chunkDelayMs).mapError fun requiredMs =>
    .writeDeadlineExceeded requiredMs maxWriteTimeoutMs

def validateTriggerPacing (spec : TriggerSpec) (settings : SerialSettings) :
    Except SlotError Unit := do
  let pacing := WritePacing.resolve spec.pacing settings
  match spec.initialWrite with
  | some initial => discard (writeDeadlineOrError initial.length pacing)
  | none => pure ()
  discard (writeDeadlineOrError spec.action.length pacing)

def validateTriggerIdentity (trigger : TriggerInfo) (daemonEpoch : Uuid)
    (generation : ℕ) : Except SlotError Unit :=
  if trigger.daemonEpoch ≠ daemonEpoch then
    .error .triggerEpochMismatch
  else if trigger.generation ≠ generation then
    .error .triggerGenerationMismatch
  else
    .ok ()

/-- The length of the compact JSON text of a map. -/
def jsonMapLength (entries : JsonMap) : ℕ :=
  2 + (entries.length - 1) +
    (entries.map fun entry => jsonStringLength entry.1 + 1 + entry.2.utf8ByteSize).sum

def validateRunMetadata (metadata : JsonMap) : Except SlotError Unit :=
  if maxRunMetadataKeys < metadata.length then
    .error (.runMetadataTooManyKeys metadata.length)
  else if maxRunMetadataBytes < jsonMapLength metadata then
    .error (.runMetadataTooLarge (jsonMapLength metadata))
  else
    .ok ()

def validateCommandCaptureReport (report : CommandCaptureReport) : Except SlotError Unit :=
  if report.completionDetail.any fun detail =>
      maxCommandCaptureDetailBytes < detail.utf8ByteSize then
    .error (.invalidCommandCapture "completion_detail exceeds 4096 UTF-8 bytes")
  else if report.txEventSeq < report.evidenceFromSeq ∨
      report.evidenceThroughSeq < report.txEventSeq then
    .error (.invalidCommandCapture "evidence must contain tx_event_seq")
  else
    .ok ()

def validateWriteFields (description : Option String)
    (commandCaptureMatchers : List CommandCaptureMatcher)
    (commandSequence : Option CommandSequenceAuditContext) : Except SlotError Unit := do
  validateCommandCaptureMatchers commandCaptureMatchers
  match description with
  | some description => validateCommandDescription description
  | none => pure ()
  match commandSequence, description with
  | some _, none => throw .invalidCommandSequenceAudit
  | some audit, some _ => validateCommandSequenceAudit audit
  | none, _ => pure ()

def validateHumanCommandFields (description : Option String)
    (input : Option HumanLineInput) : Except SlotError Unit :=
  if input.any fun input =>
      maxWriteBytes < input.command.utf8ByteSize || input.command.toList.any isControlChar then
    .error .invalidHumanLineInput
  else
    match description with
    | some description => validateCommandDescription description
    | none => .ok ()

def validateBreakDuration (durationMs : ℕ) : Except SlotError Unit :=
  if durationMs < minBreakDurationMs ∨ maxBreakDurationMs < durationMs then
    .error .invalidBreakDuration
  else
    .ok ()

def SlotRequest.validateBusinessFields : SlotRequest → Except SlotError Unit
  | .write _ _ _ _ _ _ _ description commandCaptureMatchers commandSequence _ _ =>
      validateWriteFields description commandCaptureMatchers commandSequence
  | .sendHumanCommand _ _ _ _ description input =>
      validateHumanCommandFields description input
  | .startRun _ _ _ label metadata => do
      validateLabel label
      validateRunMetadata metadata
  | .requestRunStart _ _ label metadata _ => do
      validateLabel label
      validateRunMetadata metadata
  | .recordCommandCapture _ report => validateCommandCaptureReport report
  | .checkpoint _ _ _ label => validateLabel label
  | .startTrigger _ _ _ _ _ _ _ _ spec => validateTriggerSpec spec
  | .sendBreak _ _ _ durationMs _ _ _ => validateBreakDuration durationMs
  | _ => .ok ()

/-! ## Authorization of physical actions -/

def validateHumanCommandAuthorization (actor : Actor) (expectedGeneration : ℕ)
    (control : ControlState) (activeRun : Option RunInfo) (generation now : ℕ) :
    Except SlotError Unit :=
  if actor.kind ≠ .human then
    .error (.control .notOwner)
  else if expectedGeneration ≠ generation then
    .error .generationMismatch
  else
    match control.currentLease with
    | none => .ok ()
    | some lease =>
        if lease.owner.id = actor.id then
          discard (liftControl (control.currentRemainingTtl now))
        else if lease.owner.kind = .agent then do
          discard (liftControl (control.currentRemainingTtl now))
          match activeRun with
          | none => throw (.control .busy)
          | some run =>
              if run.owner.id = lease.owner.id ∧ run.status = .active then
                pure ()
              else
                throw (.control .busy)
        else
          .error (.control .busy)

/-- The lease and the Run which an owned physical action names. -/
def validateOwnedAction (actor : Actor) (controlId : Uuid) (fence : ℕ)
    (expectedRunId : Option Uuid) (control : ControlState) (activeRun : Option RunInfo)
    (now : ℕ) : Except SlotError Unit := do
  discard (liftControl (control.validate actor.id controlId fence now))
  validateExpectedWriteRun expectedRunId actor activeRun

def SlotRequest.validateWriteAuthorization (control : ControlState)
    (activeRun : Option RunInfo) (runContext : Option RunContextState)
    (generation now : ℕ) : SlotRequest → Except SlotError Unit
  | .sendHumanCommand actor expectedGeneration _ _ _ _ =>
      validateHumanCommandAuthorization actor expectedGeneration control activeRun
        generation now
  | .write actor controlId fence _ _ expectedRunId pacing _ _ _ _ cooperative => do
      validateAgentRunContext actor activeRun runContext
      if cooperative then
        if pacing.isSome then
          throw (.control .notOwner)
        validateCooperativeWrite actor expectedRunId control activeRun
      else
        validateOwnedAction actor controlId fence expectedRunId control activeRun now
  | .startTrigger actor controlId fence _ _ _ expectedRunId _ _ => do
      validateAgentRunContext actor activeRun runContext
      validateOwnedAction actor controlId fence expectedRunId control activeRun now
  | .sendBreak actor controlId fence _ _ expectedRunId _ => do
      validateAgentRunContext actor activeRun runContext
      validateOwnedAction actor controlId fence expectedRunId control activeRun now
  | _ => .ok ()

/-! ## The boundary of a dependent write -/

/-- The `Debug` name of an event kind. -/
def EventKind.debugName : EventKind → String
  | .rx => "Rx"
  | .tx => "Tx"
  | .serialOpening => "SerialOpening"
  | .serialOpened => "SerialOpened"
  | .serialOpenFailed => "SerialOpenFailed"
  | .serialClosed => "SerialClosed"
  | .portReconfigured => "PortReconfigured"
  | .portRemoved => "PortRemoved"
  | .controlGranted => "ControlGranted"
  | .controlReleased => "ControlReleased"
  | .controlRevoked => "ControlRevoked"
  | .controlExpired => "ControlExpired"
  | .runStartRequested => "RunStartRequested"
  | .runStartApproved => "RunStartApproved"
  | .runStartDenied => "RunStartDenied"
  | .runStartTimedOut => "RunStartTimedOut"
  | .runStartCancelled => "RunStartCancelled"
  | .runStarted => "RunStarted"
  | .runEnded => "RunEnded"
  | .runAborted => "RunAborted"
  | .triggerStarted => "TriggerStarted"
  | .triggerCompleted => "TriggerCompleted"
  | .triggerCancelled => "TriggerCancelled"
  | .triggerFailed => "TriggerFailed"
  | .commandCaptureCompleted => "CommandCaptureCompleted"
  | .uartBreak => "Break"
  | .checkpoint => "Checkpoint"
  | .loggingDegraded => "LoggingDegraded"
  | .gap => "Gap"

/-- The `Debug` name of a gap reason. -/
def GapReason.debugName : GapReason → String
  | .epochChanged => "EpochChanged"
  | .ringEvicted => "RingEvicted"
  | .retention => "Retention"
  | .corruption => "Corruption"
  | .loggingFault => "LoggingFault"
  | .sequenceDiscontinuity => "SequenceDiscontinuity"

def ReplayError.message : ReplayError → String
  | .cursorAhead cursor head =>
      "cursor " ++ toString cursor ++ " is ahead of head " ++ toString head

/-- Any TX and any evidence gap since the cursor fails closed; RX is allowed. -/
def validateSequenceWritePrecondition (precondition : SequenceWritePrecondition)
    (daemonEpoch : Uuid) (generation txOffset headSeq : ℕ) (ring : EventRing) :
    Except SlotError Unit :=
  if precondition.cursor.epoch ≠ daemonEpoch then
    .error (.sequenceBoundaryChanged "daemon epoch changed")
  else if precondition.expectedGeneration ≠ generation then
    .error (.sequenceBoundaryChanged
      ("serial generation changed from " ++ toString precondition.expectedGeneration ++
        " to " ++ toString generation))
  else if precondition.expectedTxOffset ≠ txOffset then
    .error (.sequenceBoundaryChanged
      ("TX offset changed from " ++ toString precondition.expectedTxOffset ++
        " to " ++ toString txOffset))
  else
    match ring.replay daemonEpoch (some precondition.cursor) headSeq ringEvents with
    | .error error => .error (.sequenceBoundaryChanged error.message)
    | .ok replay =>
        match replay.gap with
        | some gap =>
            .error (.sequenceBoundaryChanged
              ("timeline replay gap: " ++ gap.reason.debugName))
        | none =>
            match replay.events.find? fun event =>
                event.kind = .gap || event.direction = .tx with
            | some event =>
                .error (.sequenceBoundaryChanged
                  ("timeline " ++ event.kind.debugName ++ " event at sequence " ++
                    toString event.seq ++ " crossed the boundary"))
            | none => .ok ()

def profileChangeRequiresIdle (transportReopened deviceChanged runActive
    triggerActive : Bool) : Bool :=
  !transportReopened && deviceChanged && (runActive || triggerActive)

end SerialPlatform
