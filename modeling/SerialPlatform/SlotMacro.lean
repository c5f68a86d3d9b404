import SerialPlatform.SlotPhysical

/-!
# Macros on a port

The daemon drives a macro outside of the actor; every byte of it is a command to
the actor, which checks it like any other write.  The driver also keeps the
shared execution record up to date.
-/

namespace SerialPlatform

structure MacroApplicability where
  modelFamily : String
  modelNames : List String

structure MacroDefinition where
  id : String
  revision : ℕ
  appliesTo : Option MacroApplicability
  record : JsonText

structure PreparedMacro where
  spec : JsonText
  timeoutSeconds : ℕ
  definition : Option MacroDefinition
  description : String

inductive MacroCommandKind where
  | start (controlId : Uuid) (fence : ℕ) (daemonEpoch : Uuid) (generation : ℕ)
      (operationId : Uuid) (expectedRunId : Option Uuid)
      (precondition : Option SequenceWritePrecondition) (prepared : PreparedMacro)
  | status (id : Uuid)
  | cancel (id controlId : Uuid) (fence : ℕ)
  | write (id : Uuid) (data : Bytes) (operationId : Uuid)
      (precondition : SequenceWritePrecondition)
  | finished (id : Uuid)

structure MacroCommand where
  actor : Actor
  kind : MacroCommandKind

/-- What the driver writes into the shared execution record. -/
structure MacroProgress where
  status : MacroStatus
  completedAtNs : Option ℤ
  line : ℕ
  column : ℕ
  writes : ℕ
  inputVerifiedWrites : ℕ
  sendOnlyWrites : ℕ
  bytesWritten : ℕ
  throughSeq : ℕ
  message : Option String
  outcomeUncertain : Bool

/-- Only the actor commits a terminal result. -/
def ActiveMacro.publicSnapshot (active : ActiveMacro) : MacroExecutionInfo :=
  if active.info.status.isTerminal then
    { active.info with
      status := if active.stop.isSome then .stopping else .running
      completedAtNs := none }
  else
    active.info

namespace SlotActor

/-- The driver reports its progress. -/
def macroProgress (progress : MacroProgress) (s : SlotActor) : SlotActor :=
  match s.macros.activeMacro with
  | none => s
  | some active =>
      { s with
        macros.activeMacro := some { active with
          info.status := progress.status
          info.completedAtNs := progress.completedAtNs
          info.line := progress.line
          info.column := progress.column
          info.writes := progress.writes
          info.inputVerifiedWrites := progress.inputVerifiedWrites
          info.sendOnlyWrites := progress.sendOnlyWrites
          info.bytesWritten := progress.bytesWritten
          info.throughSeq := progress.throughSeq
          info.message := progress.message
          info.outcomeUncertain := progress.outcomeUncertain } }

/-! ## The end of a macro -/

def macroInfo (id : Uuid) (s : SlotActor) : Except SlotError MacroExecutionInfo :=
  match s.macros.activeMacro.filter fun active => active.info.id = id with
  | some active => .ok active.publicSnapshot
  | none =>
      match s.macros.terminalMacros id with
      | some info => .ok info
      | none => .error (.macroNotFound id)

def retireMacro (info : MacroExecutionInfo) (s : SlotActor) : SlotActor :=
  let order := s.macros.terminalOrder ++ [info.id]
  let executions := s.macros.terminalMacros.insert info.id info
  let excess := order.length - terminalMacroHistory
  { s with
    macros.terminalOrder := order.drop excess
    macros.terminalMacros := (order.take excess).foldl Table.remove executions }

/-- A stop which was recorded wins over a provisional outcome of the driver. -/
def finalMacroInfo (active : ActiveMacro) (throughSeq : ℕ) (wall : ℤ) :
    MacroExecutionInfo :=
  let info :=
    match active.stop with
    | some stop => { active.info with status := stop.status, message := some stop.message }
    | none => active.info
  { info with
    throughSeq := throughSeq
    completedAtNs := some (info.completedAtNs.getD wall) }

def finishMacro (id : Uuid) (s : SlotActor) : SlotActor :=
  match s.macros.activeMacro with
  | none => s
  | some active =>
      if active.info.id ≠ id then
        s
      else
        let s := s.ask
        let info := finalMacroInfo active s.timeline.seq s.answer.wall
        let s := { s with macros.activeMacro := none }
        let s := s.emit .checkpoint .none [] (some info.owner) (some id)
          [("macro_execution", .execution info), ("macro_phase", .str "completed")]
        s.retireMacro info

def unexpectedStopMessage : String :=
  "macro driver stopped unexpectedly; do not automatically replay"

/-- Ends a macro whose driver is gone. -/
def reapMacro (s : SlotActor) : SlotActor :=
  let s := s.ask
  match s.macros.activeMacro with
  | none => s
  | some active =>
      if !s.answer.macroDriverGone then
        s
      else
        let active :=
          if active.info.status.isTerminal then
            active
          else
            { active with
              info.status := .failed
              info.message := some unexpectedStopMessage
              info.outcomeUncertain := true
              info.completedAtNs := some s.answer.wall }
        { s with macros.activeMacro := some active }.finishMacro active.info.id

/-! ## Commands -/

def executeMacroStatus (id : Uuid) (s : SlotActor) : Executed :=
  match s.macroInfo id with
  | .error error => s.refuse error
  | .ok info => s.answerWith (.macroStatus info)

def checkMacroOwner (actor : Actor) (id : Uuid) (s : SlotActor) :
    Except SlotError MacroExecutionInfo := do
  let info ← s.macroInfo id
  ensure (info.owner.id = actor.id) (.control .notOwner)
  pure info

def executeMacroCancel (actor : Actor) (id controlId : Uuid) (fence : ℕ)
    (s : SlotActor) : Executed :=
  let s := s.ask
  match s.checkMacroOwner actor id with
  | .error error => s.refuse error
  | .ok info =>
      let authorized :=
        if info.status.isTerminal then .ok ()
        else discard (liftControl (s.authority.control.validate actor.id controlId fence
          s.now))
      match authorized with
      | .error error => s.refuse error
      | .ok () =>
          let s :=
            if info.status.isTerminal then s
            else s.stopMacro .cancelled "macro stopped by its owner"
          match s.macroInfo id with
          | .error error => s.refuse error
          | .ok info => s.answerWith (.macroCancelled info)

def executeMacroFinished (actor : Actor) (id : Uuid) (s : SlotActor) : Executed :=
  match s.checkMacroOwner actor id with
  | .error error => s.refuse error
  | .ok _ => (s.finishMacro id).executeMacroStatus id

def checkMacroAuthorization (actor : Actor) (controlId : Uuid) (fence : ℕ)
    (daemonEpoch : Uuid) (generation : ℕ) (operationId : Uuid)
    (expectedRunId : Option Uuid) (s : SlotActor) : Except SlotError Unit := do
  validateOwnedAction actor controlId fence expectedRunId s.authority.control
    s.authority.activeRun s.now
  validateAgentRunContext actor s.authority.activeRun s.authority.runContext
  ensure (actor.kind ≠ .agent || expectedRunId.isSome) .noActiveRun
  ensure (daemonEpoch = s.daemonEpoch && generation = s.port.generation)
    .generationMismatch
  ensure (operationId ≠ 0) (.macroInvalid "operation_id must not be nil")

/-- The definition of a macro may be bound to a model of the port. -/
def macroApplies (prepared : PreparedMacro) (config : SlotConfig) : Bool :=
  match prepared.definition.bind MacroDefinition.appliesTo with
  | none => true
  | some applies =>
      config.modelFamily = some applies.modelFamily &&
        (applies.modelNames.isEmpty ||
          config.modelName.any fun name => applies.modelNames.contains name)

def checkMacroStart (precondition : Option SequenceWritePrecondition)
    (prepared : PreparedMacro) (s : SlotActor) : Except SlotError Unit := do
  ensure s.macros.activeMacro.isNone .macroActive
  ensure s.trigger.activeTrigger.isNone .triggerActive
  ensure s.port.port.isSome .portOffline
  s.checkPrecondition precondition
  ensure (macroApplies prepared s.config)
    (.macroInvalid "macro does not apply to the selected port's model")
  ensure (s.modelSettings.writeEol ≠ "")
    (.macroInvalid "Macro Script v1 requires a nonempty Profile EOL")
  match s.answer.macroStart with
  | some error => throw (.macroInvalid error)
  | none => pure ()
  ensure s.answer.macroRecordFits
    (.macroInvalid "combined source, arguments and Profile exceed the bounded audit record; shorten the macro or its parameters (no bytes written)")

def startedMacroInfo (actor : Actor) (daemonEpoch : Uuid) (generation : ℕ)
    (operationId : Uuid) (expectedRunId : Option Uuid) (prepared : PreparedMacro)
    (s : SlotActor) : MacroExecutionInfo where
  id := operationId
  port := s.config.port
  daemonEpoch := daemonEpoch
  generation := generation
  owner := actor
  runId := expectedRunId
  macroId := prepared.definition.map MacroDefinition.id
  revision := prepared.definition.map MacroDefinition.revision
  description := prepared.description
  status := .running
  startedAtNs := s.answer.wall
  completedAtNs := none
  line := 1
  column := 1
  writes := 0
  inputVerifiedWrites := 0
  sendOnlyWrites := 0
  bytesWritten := 0
  firstSeq := s.timeline.seq + 1
  throughSeq := s.timeline.seq
  message := none
  outcomeUncertain := false

def macroStartMetadata (info : MacroExecutionInfo) (prepared : PreparedMacro)
    (s : SlotActor) : Metadata :=
  [("macro_execution", .execution info), ("macro_phase", .str "started"),
    ("macro_definition",
      .ofOption (fun definition => .str definition.record) prepared.definition),
    ("macro_request", .str prepared.spec), ("macro_profile", .model s.modelSettings),
    ("macro_model_family", .ofOption .str s.config.modelFamily),
    ("macro_model_name", .ofOption .str s.config.modelName)]

/-- Installs the macro and spawns its driver before the client is answered. -/
def installMacro (actor : Actor) (controlId : Uuid) (fence : ℕ)
    (info : MacroExecutionInfo) (prepared : PreparedMacro) (s : SlotActor) : SlotActor :=
  let metadata := s.macroStartMetadata info prepared
  let s := { s with
    macros.activeMacro := some {
      info := info
      controlId := controlId
      fence := fence
      deadline := s.now + fromMillis (prepared.timeoutSeconds * 1000)
      stop := none } }
  s.emit .checkpoint .none [] (some actor) (some info.id) metadata

/-- A cached result, or why the operation may not run. -/
def macroStartReplay (operationId : Uuid) (fingerprint : WriteFingerprint)
    (s : SlotActor) : Option SlotResult :=
  match s.caches.writeRequestCache operationId with
  | some cached =>
      some (if cached.fingerprint = fingerprint then cached.result
        else .error .requestIdReused)
  | none =>
      match s.caches.executedWriteIds.wasExecutedOrReserveable operationId with
      | .error error => some (.error error)
      | .ok true => some (.error .writeResultExpired)
      | .ok false => none

def executeMacroStart (actor : Actor) (controlId : Uuid) (fence : ℕ)
    (daemonEpoch : Uuid) (generation : ℕ) (operationId : Uuid)
    (expectedRunId : Option Uuid) (precondition : Option SequenceWritePrecondition)
    (prepared : PreparedMacro) (s : SlotActor) : Executed :=
  let s := s.ask
  match s.checkMacroAuthorization actor controlId fence daemonEpoch generation operationId
      expectedRunId with
  | .error error => s.refuse error
  | .ok () =>
      let fingerprint :=
        WriteFingerprint.macroStart daemonEpoch generation expectedRunId prepared.spec
      match s.macroStartReplay operationId fingerprint with
      | some result => (s, result)
      | none =>
          match s.checkMacroStart precondition prepared with
          | .error error => s.refuse error
          | .ok () =>
              let info := s.startedMacroInfo actor daemonEpoch generation operationId
                expectedRunId prepared
              let s := s.installMacro actor controlId fence info prepared
              let result : SlotResult := .ok (.macroStarted info)
              (s.cacheWriteResult operationId fingerprint result, result)

def checkMacroWrite (actor : Actor) (id : Uuid) (s : SlotActor) :
    Except SlotError ActiveMacro :=
  match s.macros.activeMacro with
  | none => .error (.macroNotFound id)
  | some active => do
      ensure (active.info.id = id && active.info.owner.id = actor.id) (.control .notOwner)
      ensure active.stop.isNone .macroActive
      ensure (s.now < active.deadline) (.macroInvalid "macro deadline reached before write")
      pure active

/-- The barrier can surface a port close, which stops the macro. -/
def recheckMacroWrite (actor : Actor) (s : SlotActor) : Except SlotError Unit := do
  ensure (s.macros.activeMacro.any fun active =>
      active.stop.isNone && s.now < active.deadline)
    (.macroInvalid "macro stopped or deadline reached before physical write")
  validateAgentRunContext actor s.authority.activeRun s.authority.runContext

def setMacroWriteAuthorized (id : Option Uuid) (s : SlotActor) : SlotActor :=
  { s with macros.writeAuthorized := id }

def executeMacroWrite (actor : Actor) (id : Uuid) (data : Bytes) (operationId : Uuid)
    (precondition : SequenceWritePrecondition) (s : SlotActor) : Executed :=
  let s := s.ask
  match s.checkMacroWrite actor id with
  | .error error => s.refuse error
  | .ok active =>
      match s.flushPretriggerRx with
      | (s, .error error) => s.refuse error
      | (s, .ok ()) =>
          let s := s.ask
          match s.recheckMacroWrite actor with
          | .error error => s.refuse error
          | .ok () =>
              let s := s.setMacroWriteAuthorized (some id)
              let executed := s.execute (.macroStep id)
                (.write actor active.controlId active.fence data (some operationId)
                  active.info.runId none (some active.info.description) [] none
                  (some precondition) false)
              (executed.1.setMacroWriteAuthorized none, executed.2)

def executeMacroCommand (command : MacroCommand) (s : SlotActor) : Executed :=
  match command.kind with
  | .start controlId fence daemonEpoch generation operationId expectedRunId precondition
      prepared =>
      s.executeMacroStart command.actor controlId fence daemonEpoch generation operationId
        expectedRunId precondition prepared
  | .status id => s.executeMacroStatus id
  | .cancel id controlId fence => s.executeMacroCancel command.actor id controlId fence
  | .write id data operationId precondition =>
      s.executeMacroWrite command.actor id data operationId precondition
  | .finished id => s.executeMacroFinished command.actor id

def handleMacroCommand (command : MacroCommand) (s : SlotActor) : SlotActor :=
  let executed := s.expireControl.executeMacroCommand command
  executed.1.record (.macroReply executed.2)

end SlotActor
end SerialPlatform
