import SerialPlatform.SlotExecute

/-!
# Physical actions

Writes, BREAKs, Human commands and Triggers.  Every one is checked against the
lease, the Run and the timeline boundary right before the port queue takes it.
-/

namespace SerialPlatform
namespace SlotActor

/-! ## The port queue -/

/-- Hands a write to the port queue and waits for its outcome; `none` is a
writer which stopped without an answer. -/
def writeToPort (origin : Origin) (actor : Actor) (data : Bytes) (pacing : WritePacing)
    (s : SlotActor) : SlotActor × Except SlotError (Option PortWriteOutcome) :=
  match s.port.port with
  | none => (s, .error .portOffline)
  | some worker =>
      let s := s.ask
      if s.answer.send = .closed then
        (s, .error .portOffline)
      else
        let run := s.writerRun worker data pacing
        (s.record (.portWrite origin actor data run s.now), .ok run.outcome)

def breakOnPort (origin : Origin) (actor : Actor) (s : SlotActor) :
    SlotActor × Except SlotError (Option PortBreakOutcome) :=
  match s.port.port with
  | none => (s, .error .portOffline)
  | some worker =>
      let s := s.ask
      if s.answer.send = .closed then
        (s, .error .portOffline)
      else
        let outcome := if worker.stopped then none else s.answer.breaking.map sendBreak
        (s.record (.portBreak origin actor outcome), .ok outcome)

def checkPrecondition (precondition : Option SequenceWritePrecondition) (s : SlotActor) :
    Except SlotError Unit :=
  match precondition with
  | none => .ok ()
  | some precondition =>
      validateSequenceWritePrecondition precondition s.daemonEpoch s.port.generation
        s.timeline.txOffset s.timeline.seq s.timeline.ring

/-! ## TX events -/

def writeEventMetadata (isPartial cooperative : Bool) (description : Option String)
    (commandCaptureMatchers : List CommandCaptureMatcher)
    (commandSequence : Option CommandSequenceAuditContext) : Metadata :=
  [("partial", .bool isPartial), ("cooperative", .bool cooperative)] ++
  (match description with
    | some description => [("command_description", .str description)]
    | none => []) ++
  (if commandCaptureMatchers = [] then []
    else [("command_capture_matchers", .matchers commandCaptureMatchers)]) ++
  match commandSequence with
  | some sequence =>
      [("command_sequence_id", .uuid sequence.sequenceId),
        ("command_sequence_description", .str sequence.description),
        ("command_sequence_step_index", .num sequence.stepIndex),
        ("command_sequence_step_count", .num sequence.stepCount)]
  | none => []

/-- The context of the Run in which a Human intervenes. -/
def interferedContext (runId : Uuid) (s : SlotActor) : RunContextState :=
  let context := s.authority.runContext.getD (freshRunContext runId)
  { context with
    revision := satAdd u64Max context.revision 1
    lastHumanCommandSeq := some s.nextSeq }

def noteIntervention (runId : Uuid) (s : SlotActor) : SlotActor :=
  { s with authority.runContext := some (s.interferedContext runId) }

/-- The answer to a write which reported its outcome. -/
def writeAnswer (total : ℕ) (operationId : Option Uuid) (generation : ℕ)
    (eventSeq : Option ℕ) (outcome : PortWriteOutcome) (accepted : CommandResult) :
    SlotResult :=
  if outcome.written ≠ total ∨ outcome.error.isSome then
    .error (.partialWrite outcome.written total generation eventSeq operationId
      (outcome.error.getD "short serial write"))
  else
    .ok accepted

def unansweredWrite (total generation : ℕ) (operationId : Option Uuid)
    (message : String) : SlotError :=
  .partialWrite 0 total generation none operationId message

/-! ## Human commands -/

/-- How a Human command relates to the lease. -/
structure HumanCommandLease where
  mode : HumanCommandMode
  ownedLease : Option ControlLease
  interferedRunId : Option Uuid

/-- The bytes which a submitted line stands for. -/
def humanLineBytes (command eol : String) : Bytes :=
  let bytes := command.toUTF8.toList ++ eol.toUTF8.toList
  if bytes = [] then [13] else bytes

def checkHumanCommand (actor : Actor) (expectedGeneration : ℕ) (data : Bytes)
    (operationId : Option Uuid) (input : Option HumanLineInput) (s : SlotActor) :
    Except SlotError Unit := do
  ensure (actor.kind = .human) (.control .notOwner)
  ensure (expectedGeneration = s.port.generation) .generationMismatch
  ensure s.port.port.isSome .portOffline
  ensure (data ≠ []) .emptyWrite
  match input with
  | none => pure ()
  | some input =>
      ensure (humanLineBytes input.command s.modelSettings.writeEol = data &&
        operationId.isSome) .invalidHumanLineInput

def leaseForHumanCommand (actor : Actor) (s : SlotActor) :
    SlotActor × Except SlotError HumanCommandLease :=
  let s := s.ask
  match s.authority.control.currentLease with
  | none =>
      let granted := s.authority.control.grantIfIdle actor 60000 s.answer.wall s.now
        s.answer.uuid
      match granted.2 with
      | .error error => (s, .error (.control error))
      | .ok lease =>
          ((s.setControl granted.1).emitControlGranted lease,
            .ok { mode := .owned, ownedLease := some lease, interferedRunId := none })
  | some lease =>
      if lease.owner.id = actor.id then
        match s.authority.control.currentRemainingTtl s.now with
        | .error error => (s, .error (.control error))
        | .ok _ =>
            (s, .ok { mode := .owned, ownedLease := some lease, interferedRunId := none })
      else if lease.owner.kind = .agent then
        match s.authority.activeRun with
        | none => (s, .error (.control .busy))
        | some run =>
            if run.owner.id ≠ lease.owner.id ∨ run.status ≠ .active then
              (s, .error (.control .busy))
            else
              match s.authority.control.currentRemainingTtl s.now with
              | .error error => (s, .error (.control error))
              | .ok _ =>
                  (s, .ok {
                    mode := .cooperative
                    ownedLease := none
                    interferedRunId := some run.id })
      else
        (s, .error (.control .busy))

def humanInterruptMessage : String :=
  "a Human used command input; read the changed serial context before the next Agent command"

def humanUnansweredMessage : String :=
  "serial writer stopped before confirming the Human command outcome; the physical write may have occurred"

/-- Stops the Agent's macro and Trigger; an owned command refuses a Trigger. -/
def quietenForHumanCommand (mode : HumanCommandMode) (s : SlotActor) :
    SlotActor × Except SlotError Unit :=
  let s := s.stopMacro .interruptedByUser humanInterruptMessage
  if s.trigger.activeTrigger.isSome then
    match mode with
    | .cooperative => (s.quiesceTriggerForHumanCommand, .ok ())
    | .owned => (s, .error .triggerActive)
  else
    (s, .ok ())

/-- Pacing of a Human command, within the budget and the lease. -/
def checkHumanWrite (data : Bytes) (s : SlotActor) : Except SlotError WritePacing := do
  let pacing := WritePacing.resolve none s.effectiveSerialSettings
  let writeTimeout ← writeDeadlineOrError data.length pacing
  let remaining ← liftControl (s.authority.control.currentRemainingTtl s.now)
  ensureLeaseCoversWrite remaining writeTimeout
  pure pacing

def humanTxMetadata (data : Bytes) (outcome : PortWriteOutcome)
    (description : Option String) (input : Option HumanLineInput)
    (lease : HumanCommandLease) (revision : ℕ) : Metadata :=
  writeEventMetadata (outcome.written ≠ data.length) (lease.mode = .cooperative)
    description [] none ++
  [("human_command", .bool true)] ++
  (match input with
    | some input =>
        if outcome.written = data.length ∧ outcome.error = none ∧
            ¬ input.command.isEmpty then
          [("human_line_input", .str input.command)]
        else
          []
    | none => []) ++
  match lease.interferedRunId with
  | some runId => [("context_revision", .num revision), ("interfered_run_id", .uuid runId)]
  | none => []

/-- The TX event of a Human command, which closes the gate of the Agent. -/
def emitHumanTx (actor : Actor) (data : Bytes) (operationId : Option Uuid)
    (description : Option String) (input : Option HumanLineInput)
    (lease : HumanCommandLease) (outcome : PortWriteOutcome) (s : SlotActor) :
    SlotActor × Option ℕ :=
  match lease.interferedRunId with
  | some runId =>
      let s := s.noteIntervention runId
      let revision := (s.authority.runContext.map RunContextState.revision).getD 0
      (s.emit .tx .tx (data.take outcome.written) (some actor) operationId
        (humanTxMetadata data outcome description input lease revision), some revision)
  | none =>
      (s.emit .tx .tx (data.take outcome.written) (some actor) operationId
        (humanTxMetadata data outcome description input lease 0), none)

def finishHumanCommand (actor : Actor) (data : Bytes) (operationId : Option Uuid)
    (description : Option String) (input : Option HumanLineInput)
    (lease : HumanCommandLease) (outcome : PortWriteOutcome) (s : SlotActor) : Executed :=
  if 0 < outcome.written then
    let eventSeq := s.nextSeq
    let emitted := s.emitHumanTx actor data operationId description input lease outcome
    (emitted.1, writeAnswer data.length operationId emitted.1.port.generation
      (some eventSeq) outcome
      (.humanCommandAccepted eventSeq lease.mode lease.ownedLease lease.interferedRunId
        emitted.2))
  else
    (s, writeAnswer data.length operationId s.port.generation none outcome
      (.humanCommandAccepted 0 lease.mode lease.ownedLease lease.interferedRunId none))

def performHumanCommand (origin : Origin) (actor : Actor) (data : Bytes)
    (operationId : Option Uuid) (description : Option String)
    (input : Option HumanLineInput) (lease : HumanCommandLease) (s : SlotActor) :
    Executed :=
  let s := s.ask
  match s.checkHumanWrite data with
  | .error error => s.refuse error
  | .ok pacing =>
      match s.writeToPort origin actor data pacing with
      | (s, .error error) => s.refuse error
      | (s, .ok none) =>
          s.refuse (unansweredWrite data.length s.port.generation operationId
            humanUnansweredMessage)
      | (s, .ok (some outcome)) =>
          s.finishHumanCommand actor data operationId description input lease outcome

def executeSendHumanCommand (origin : Origin) (actor : Actor) (expectedGeneration : ℕ)
    (data : Bytes) (operationId : Option Uuid) (description : Option String)
    (input : Option HumanLineInput) (s : SlotActor) : Executed :=
  match s.checkHumanCommand actor expectedGeneration data operationId input with
  | .error error => s.refuse error
  | .ok () =>
      match s.leaseForHumanCommand actor with
      | (s, .error error) => s.refuse error
      | (s, .ok lease) =>
          match s.quietenForHumanCommand lease.mode with
          | (s, .error error) => s.refuse error
          | (s, .ok ()) =>
              s.performHumanCommand origin actor data operationId description input lease

/-! ## Writes -/

/-- A macro owns the port; only its own step may write. -/
def macroBlocksWrite (s : SlotActor) : Bool :=
  s.macros.activeMacro.any fun active =>
    s.macros.writeAuthorized ≠ some active.info.id || active.stop.isSome

def checkWrite (actor : Actor) (controlId : Uuid) (fence : ℕ) (data : Bytes)
    (expectedRunId : Option Uuid) (pacing : Option WritePacing)
    (sequencePrecondition : Option SequenceWritePrecondition) (cooperative : Bool)
    (s : SlotActor) : Except SlotError WritePacing := do
  ensure (!s.macroBlocksWrite) .macroActive
  ensure s.trigger.activeTrigger.isNone .triggerActive
  if cooperative then
    validateCooperativeWrite actor expectedRunId s.authority.control s.authority.activeRun
  else
    validateExpectedWriteRun expectedRunId actor s.authority.activeRun
  ensure (data.length ≤ maxWriteBytes) .writeTooLarge
  ensure (data ≠ []) .emptyWrite
  let pacing := WritePacing.resolve pacing s.effectiveSerialSettings
  let writeTimeout ← writeDeadlineOrError data.length pacing
  let remaining ←
    if cooperative then
      liftControl (s.authority.control.currentRemainingTtl s.now)
    else
      liftControl (s.authority.control.remainingTtl actor.id controlId fence s.now)
  ensureLeaseCoversWrite remaining writeTimeout
  s.checkPrecondition sequencePrecondition
  pure pacing

def writeUnansweredMessage : String :=
  "serial writer stopped before confirming the outcome; the physical write may have occurred"

/-- The audit fields of the macro step which writes. -/
def macroTxMetadata (s : SlotActor) : Metadata :=
  match s.macros.activeMacro with
  | none => []
  | some active =>
      if s.macros.writeAuthorized = some active.info.id then
        [("macro_execution_id", .uuid active.info.id),
          ("macro_id", .ofOption .str active.info.macroId),
          ("macro_description", .str active.info.description),
          ("macro_revision", .ofOption .num active.info.revision),
          ("macro_line", .num active.info.line),
          ("macro_column", .num active.info.column)]
      else
        []

def cooperativeMetadata (run : RunInfo) (revision : ℕ) : Metadata :=
  [("human_command", .bool true), ("interfered_run_id", .uuid run.id),
    ("interfered_run_owner", .actor run.owner), ("context_revision", .num revision)]

/-- The TX event of a write; a cooperative one closes the gate of the Agent. -/
def emitWriteTx (actor : Actor) (data : Bytes) (operationId : Option Uuid)
    (cooperative : Bool) (metadata : Metadata) (outcome : PortWriteOutcome)
    (s : SlotActor) : SlotActor :=
  let metadata := metadata ++ s.macroTxMetadata
  match cooperative, s.authority.activeRun with
  | true, some run =>
      let s := s.noteIntervention run.id
      let revision := (s.authority.runContext.map RunContextState.revision).getD 0
      s.emit .tx .tx (data.take outcome.written) (some actor) operationId
        (metadata ++ cooperativeMetadata run revision)
  | _, _ =>
      s.emit .tx .tx (data.take outcome.written) (some actor) operationId metadata

def finishWrite (actor : Actor) (data : Bytes) (operationId : Option Uuid)
    (cooperative : Bool) (metadata : Metadata) (outcome : PortWriteOutcome)
    (s : SlotActor) : Executed :=
  if 0 < outcome.written then
    let eventSeq := s.nextSeq
    let s := s.emitWriteTx actor data operationId cooperative metadata outcome
    (s, writeAnswer data.length operationId s.port.generation (some eventSeq) outcome
      (.writeAccepted eventSeq))
  else
    (s, writeAnswer data.length operationId s.port.generation none outcome
      (.writeAccepted 0))

def executeWrite (origin : Origin) (actor : Actor) (controlId : Uuid) (fence : ℕ)
    (data : Bytes) (operationId expectedRunId : Option Uuid) (pacing : Option WritePacing)
    (description : Option String) (commandCaptureMatchers : List CommandCaptureMatcher)
    (commandSequence : Option CommandSequenceAuditContext)
    (sequencePrecondition : Option SequenceWritePrecondition) (cooperative : Bool)
    (s : SlotActor) : Executed :=
  let s := s.ask
  match s.checkWrite actor controlId fence data expectedRunId pacing
      sequencePrecondition cooperative with
  | .error error => s.refuse error
  | .ok pacing =>
      match s.writeToPort origin actor data pacing with
      | (s, .error error) => s.refuse error
      | (s, .ok none) =>
          -- a lost answer cannot prove that nothing reached the driver
          s.refuse (unansweredWrite data.length s.port.generation operationId
            writeUnansweredMessage)
      | (s, .ok (some outcome)) =>
          s.finishWrite actor data operationId cooperative
            (writeEventMetadata (outcome.written ≠ data.length) cooperative description
              commandCaptureMatchers commandSequence) outcome

/-! ## BREAK -/

def checkSendBreak (actor : Actor) (controlId : Uuid) (fence durationMs : ℕ)
    (expectedRunId : Option Uuid)
    (sequencePrecondition : Option SequenceWritePrecondition) (s : SlotActor) :
    Except SlotError Unit := do
  ensure s.macros.activeMacro.isNone .macroActive
  ensure s.trigger.activeTrigger.isNone .triggerActive
  validateExpectedWriteRun expectedRunId actor s.authority.activeRun
  validateBreakDuration durationMs
  let remaining ← liftControl (s.authority.control.remainingTtl actor.id controlId fence
    s.now)
  ensureLeaseCoversWrite remaining (fromMillis durationMs)
  s.checkPrecondition sequencePrecondition

def breakUnansweredMessage : String :=
  "serial writer stopped before confirming that BREAK was cleared; the physical signal may have occurred"

def executeSendBreak (origin : Origin) (actor : Actor) (controlId : Uuid)
    (fence durationMs : ℕ) (operationId expectedRunId : Option Uuid)
    (sequencePrecondition : Option SequenceWritePrecondition) (s : SlotActor) :
    Executed :=
  let s := s.ask
  match s.checkSendBreak actor controlId fence durationMs expectedRunId
      sequencePrecondition with
  | .error error => s.refuse error
  | .ok () =>
      match s.breakOnPort origin actor with
      | (s, .error error) => s.refuse error
      | (s, .ok none) =>
          s.refuse (.writeOutcomeUncertain operationId breakUnansweredMessage)
      | (s, .ok (some outcome)) =>
          match outcome.error with
          | some (.unsupported _) => s.refuse .breakUnsupported
          | some (.failed message) => s.refuse (.breakFailed message)
          | none =>
              let eventSeq := s.nextSeq
              (s.emit .uartBreak .none [] (some actor) operationId
                [("duration_ms", .num durationMs)]).answerWith (.breakSent eventSeq)

/-! ## Triggers -/

/-- The lease and the Run, before and after the reader barrier. -/
def checkTriggerOwner (actor : Actor) (controlId : Uuid) (fence : ℕ)
    (expectedRunId : Option Uuid) (s : SlotActor) : Except SlotError Unit :=
  validateOwnedAction actor controlId fence expectedRunId s.authority.control
    s.authority.activeRun s.now

def checkStartTrigger (actor : Actor) (controlId : Uuid) (fence : ℕ) (daemonEpoch : Uuid)
    (generation : ℕ) (expectedRunId : Option Uuid) (spec : TriggerSpec) (s : SlotActor) :
    Except SlotError Unit := do
  ensure s.macros.activeMacro.isNone .macroActive
  ensure s.trigger.activeTrigger.isNone .triggerActive
  ensure (daemonEpoch = s.daemonEpoch) .triggerEpochMismatch
  ensure (generation = s.port.generation) .triggerGenerationMismatch
  ensure s.port.port.isSome .portOffline
  validateTriggerPacing spec s.effectiveSerialSettings
  s.checkTriggerOwner actor controlId fence expectedRunId

/-- The barrier can surface a port close, and a backlog can use up the lease. -/
def recheckStartTrigger (actor : Actor) (controlId : Uuid) (fence generation : ℕ)
    (expectedRunId : Option Uuid)
    (sequencePrecondition : Option SequenceWritePrecondition) (s : SlotActor) :
    Except SlotError Unit := do
  ensure s.port.port.isSome .portOffline
  ensure (generation = s.port.generation) .triggerGenerationMismatch
  s.checkTriggerOwner actor controlId fence expectedRunId
  s.checkPrecondition sequencePrecondition

def setArming (arming : Bool) (s : SlotActor) : SlotActor :=
  { s with trigger.arming := arming }

/-- The Trigger as it is armed. -/
def newTrigger (actor : Actor) (controlId : Uuid) (fence : ℕ) (daemonEpoch : Uuid)
    (generation : ℕ) (operationId expectedRunId : Option Uuid) (spec : TriggerSpec)
    (s : SlotActor) : ActiveTrigger :=
  let initialPending := spec.initialWrite.isSome
  let startSeen := spec.startContains.isNone
  let status :=
    if initialPending then .armed else if startSeen then .running else .waitingForStart
  { info := {
      id := s.answer.uuid
      owner := actor
      daemonEpoch := daemonEpoch
      generation := generation
      controlId := controlId
      fence := fence
      operationId := operationId
      expectedRunId := expectedRunId
      spec := spec
      status := status
      startSeq := s.nextSeq
      endSeq := none
      lastWriteSeq := none
      firesConfirmed := 0
      txBytesConfirmed := 0
      matchedPattern := none }
    boundRunId := expectedRunId.or (s.authority.activeRun.map RunInfo.id)
    deadline := s.now + fromMillis spec.timeoutMs
    nextWriteAt := if initialPending || startSeen then some s.now else none
    initialPending := initialPending
    startSeen := startSeen
    startMatcher := spec.startContains.map fun pattern => LiteralMatcher.new [pattern]
    stopMatcher := LiteralMatcher.new spec.stopContains
    writeInFlight := none
    bufferedRx := {}
    pendingTerminal := none }

def armTrigger (origin : Origin) (trigger : ActiveTrigger) (s : SlotActor) : SlotActor :=
  let s := (s.setTrigger trigger).record (.triggerArmed origin trigger)
  s.emitInner .triggerStarted .none [] (some trigger.info.owner) trigger.info.operationId
    trigger.boundRunId (triggerEventMetadata trigger.info)

def executeStartTrigger (origin : Origin) (actor : Actor) (controlId : Uuid) (fence : ℕ)
    (daemonEpoch : Uuid) (generation : ℕ) (operationId expectedRunId : Option Uuid)
    (sequencePrecondition : Option SequenceWritePrecondition) (spec : TriggerSpec)
    (s : SlotActor) : Executed :=
  let s := s.ask
  match s.checkStartTrigger actor controlId fence daemonEpoch generation expectedRunId
      spec with
  | .error error => s.refuse error
  | .ok () =>
      let flushed := (s.setArming true).flushPretriggerRx
      let s := flushed.1.setArming false
      match flushed.2 with
      | .error error => s.refuse error
      | .ok () =>
          let s := s.ask
          match s.recheckStartTrigger actor controlId fence generation expectedRunId
              sequencePrecondition with
          | .error error => s.refuse error
          | .ok () =>
              let s := s.ask
              let trigger := s.newTrigger actor controlId fence daemonEpoch generation
                operationId expectedRunId spec
              (s.armTrigger origin trigger).answerWith (.triggerStarted trigger.info)

def executeTriggerStatus (daemonEpoch : Uuid) (generation : ℕ) (triggerId : Uuid)
    (s : SlotActor) : Executed :=
  let found := do
    let trigger ← s.lookupTrigger triggerId
    validateTriggerIdentity trigger daemonEpoch generation
    pure trigger
  match found with
  | .error error => s.refuse error
  | .ok trigger => s.answerWith (.triggerStatus trigger)

def checkCancelTrigger (actor : Actor) (controlId : Uuid) (fence : ℕ)
    (trigger : TriggerInfo) (s : SlotActor) : Except SlotError Unit := do
  ensure (trigger.owner.id = actor.id) (.triggerNotOwner trigger.id)
  discard (liftControl (s.authority.control.validate actor.id controlId fence s.now))
  ensure (trigger.controlId = controlId && trigger.fence = fence) (.control .staleFence)

def executeCancelTrigger (actor : Actor) (controlId : Uuid) (fence : ℕ)
    (daemonEpoch : Uuid) (generation : ℕ) (triggerId : Uuid) (s : SlotActor) : Executed :=
  let found := do
    let trigger ← s.lookupTrigger triggerId
    validateTriggerIdentity trigger daemonEpoch generation
    pure trigger
  match found with
  | .error error => s.refuse error
  | .ok trigger =>
      if trigger.status.isTerminal then
        s.answerWith (.triggerCancelled trigger)
      else
        let s := s.ask
        match s.checkCancelTrigger actor controlId fence trigger with
        | .error error => s.refuse error
        | .ok () =>
            let s := s.requestTriggerStop .cancelled none
            match s.lookupTrigger triggerId with
            | .error error => s.refuse error
            | .ok trigger => s.answerWith (.triggerCancelled trigger)

/-! ## Dispatch -/

def execute (origin : Origin) (request : SlotRequest) (s : SlotActor) : Executed :=
  let s := s.expireControl
  match request with
  | .acquire actor mode ttlMs => s.executeAcquire actor mode ttlMs
  | .requestRunStart actor requestId label metadata ttlMs =>
      s.executeRequestRunStart actor requestId label metadata ttlMs
  | .decideRunStart actor approvalId decision =>
      s.executeDecideRunStart actor approvalId decision
  | .cancelRunStart actor approvalId => s.executeCancelRunStart actor approvalId
  | .renew actor controlId fence ttlMs => s.executeRenew actor controlId fence ttlMs
  | .release actor controlId fence => s.executeRelease actor controlId fence
  | .cancelAcquire actor _ => s.executeCancelAcquire actor
  | .sendHumanCommand actor expectedGeneration data operationId description input =>
      s.executeSendHumanCommand origin actor expectedGeneration data operationId
        description input
  | .write actor controlId fence data operationId expectedRunId pacing description
      commandCaptureMatchers commandSequence sequencePrecondition cooperative =>
      s.executeWrite origin actor controlId fence data operationId expectedRunId pacing
        description commandCaptureMatchers commandSequence sequencePrecondition cooperative
  | .sendBreak actor controlId fence durationMs operationId expectedRunId
      sequencePrecondition =>
      s.executeSendBreak origin actor controlId fence durationMs operationId expectedRunId
        sequencePrecondition
  | .startTrigger actor controlId fence daemonEpoch generation operationId expectedRunId
      sequencePrecondition spec =>
      s.executeStartTrigger origin actor controlId fence daemonEpoch generation operationId
        expectedRunId sequencePrecondition spec
  | .triggerStatus _ daemonEpoch generation triggerId =>
      s.executeTriggerStatus daemonEpoch generation triggerId
  | .cancelTrigger actor controlId fence daemonEpoch generation triggerId =>
      s.executeCancelTrigger actor controlId fence daemonEpoch generation triggerId
  | .startRun actor controlId fence label metadata =>
      s.executeStartRun actor controlId fence label metadata
  | .endRun actor controlId fence runId => s.executeEndRun actor controlId fence runId
  | .checkpoint actor controlId fence label =>
      s.executeCheckpoint actor controlId fence label
  | .acknowledgeRunContext actor runId revision throughSeq =>
      s.executeAcknowledgeRunContext actor runId revision throughSeq
  | .recordCommandCapture actor report => s.executeRecordCommandCapture actor report

end SlotActor
end SerialPlatform
