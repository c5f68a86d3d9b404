import SerialPlatform.SlotMacro

/-!
# Staged configuration changes

A change is staged first and takes effect when it is committed.  A change of the
physical settings pauses the port while it is staged.
-/

namespace SerialPlatform
namespace SlotActor

/-- The closing event of a paused or stopped port, or only a snapshot. -/
def announceStopped (wasOnline : Bool) (reason : String) (s : SlotActor) : SlotActor :=
  if wasOnline then
    s.emitSystem .serialClosed [("reason", .str reason)]
  else
    s.publishSnapshot

def pauseForReconfigure (s : SlotActor) : SlotActor :=
  if s.port.administrativelyPaused then
    s
  else
    let wasOnline := s.port.port.isSome
    let s := s.setPort { s.port with administrativelyPaused := true }
    let s := s.stopPortAndTrigger .generationChanged
    let s := s.loseControl "port_reconfiguration" "port reconfiguration"
    let s := s.setPort { s.port with
      sessionState := .disabled
      stateReason := some "port reconfiguration in progress"
      stateCode := none
      targetActivity := .unknown }
    s.announceStopped wasOnline "port reconfiguration"

def prepareShutdown (s : SlotActor) : SlotActor :=
  let wasOnline := s.port.port.isSome
  let s := s.setPort { s.port with administrativelyPaused := true }
  let s := s.stopPortAndTrigger .portClosed
  let s := s.loseControl "daemon_shutdown" "port shutdown"
  let s := s.setPort { s.port with
    sessionState := .disabled
    stateReason := some "port stopped"
    stateCode := none
    targetActivity := .unknown }
  s.announceStopped wasOnline "port shutdown"

def resumeCurrentConfig (s : SlotActor) : SlotActor :=
  let s := s.ask
  let opens := s.config.enabled && s.effectiveSerialSettings.autoOpen
  s.setPort { s.port with
    endpointPresent := false
    lastRxInstant := none
    lastRxWallTimeNs := none
    targetActivity := .unknown
    retryAt := s.now
    retryDelay := openBackoffMin
    administrativelyPaused := false
    sessionState := if opens then .waitingForPort else .disabled
    stateReason := none
    stateCode := none }

/-! ## Staging -/

/-- The staged change needs the port to be reopened. -/
def changeReopens (config : SlotConfig) (transportProfile : Option TransportProfile)
    (s : SlotActor) : Bool :=
  s.config.port ≠ config.port || s.config.enabled ≠ config.enabled ||
    s.transportSettings ≠ resolveTransportSettings {} transportProfile

/-- The staged change touches the behaviour of the device model. -/
def changeTouchesDevice (config : SlotConfig) (modelProfile : Option ModelProfile)
    (s : SlotActor) : Bool :=
  s.modelProfile ≠ modelProfile || s.config.modelProfile ≠ config.modelProfile ||
    s.modelSettings ≠ resolveModelSettings {} modelProfile

def stageReconfiguration (config : SlotConfig)
    (transportProfile : Option TransportProfile) (modelProfile : Option ModelProfile)
    (source : String) (resumeOnRollback : Bool) (s : SlotActor) :
    SlotActor × Except SlotError Bool :=
  if s.macros.activeMacro.isSome then
    (s, .error .profileChangeBusy)
  else if config.port ≠ s.config.port then
    (s, .error .slotIdChanged)
  else
    let reopened := s.changeReopens config transportProfile
    if profileChangeRequiresIdle reopened (s.changeTouchesDevice config modelProfile)
        s.authority.activeRun.isSome s.trigger.activeTrigger.isSome then
      (s, .error .profileChangeBusy)
    else
      let s := if reopened then s.pauseForReconfigure else s
      ({ s with
          pendingReconfiguration := some
            (.replace config transportProfile modelProfile source resumeOnRollback
              reopened) }, .ok true)

def stageRemoval (source : String) (s : SlotActor) : SlotActor × Except SlotError Bool :=
  let s := s.pauseForReconfigure
  ({ s with pendingReconfiguration := some (.remove source) }, .ok true)

/-- Staging a profile is inert; an unchanged one is not staged at all. -/
def stageModelProfile (modelProfile : Option ModelProfile) (s : SlotActor) :
    SlotActor × Except SlotError Bool :=
  if s.modelProfile = modelProfile then
    (s, .ok false)
  else if s.authority.activeRun.isSome || s.trigger.activeTrigger.isSome ||
      s.macros.activeMacro.isSome then
    (s, .error .profileChangeBusy)
  else
    ({ s with pendingReconfiguration := some (.modelProfile modelProfile) }, .ok true)

/-! ## Commit and rollback -/

/-- The fields which tell a profile change apart. -/
def profileChangeMetadata (previous new : Option SlotConfig) : Metadata :=
  let field := fun (select : SlotConfig → Option String) (config : Option SlotConfig) =>
    MetaValue.ofOption .str (config.bind select)
  [("previous_model_profile", field SlotConfig.modelProfile previous),
    ("new_model_profile", field SlotConfig.modelProfile new),
    ("previous_model_family", field SlotConfig.modelFamily previous),
    ("new_model_family", field SlotConfig.modelFamily new),
    ("previous_model_name", field SlotConfig.modelName previous),
    ("new_model_name", field SlotConfig.modelName new)]

def modelProfileName (modelProfile : Option ModelProfile) : MetaValue :=
  .ofOption .str (modelProfile.map ModelProfile.name)

def commitAdd (source : String) (s : SlotActor) : SlotActor :=
  let s := s.resumeCurrentConfig
  s.emitSystem .portReconfigured
    ([("port", .str s.config.port), ("source", .str source)] ++
      profileChangeMetadata none (some s.config))

def commitRemove (source : String) (s : SlotActor) : SlotActor :=
  s.emitSystem .portRemoved
    ([("reason", .str "port removed from active configuration"),
        ("port", .str s.config.port), ("source", .str source)] ++
      profileChangeMetadata (some s.config) none)

def applyCommittedModelProfile (modelProfile : Option ModelProfile) (s : SlotActor) :
    SlotActor :=
  let previousEffective := s.modelSettings
  let s := { s with modelProfile := modelProfile }
  s.emitSystem .portReconfigured
    [("current", .config s.config), ("model_profile", modelProfileName s.modelProfile),
      ("previous_effective", .model previousEffective),
      ("effective", .model s.modelSettings), ("profile_only", .bool true)]

def applyCommittedReconfiguration (config : SlotConfig)
    (transportProfile : Option TransportProfile) (modelProfile : Option ModelProfile)
    (source : String) (reopened : Bool) (s : SlotActor) : SlotActor :=
  let previous := s.config
  let previousEffective := s.modelSettings
  let previousTransport := s.transportSettings
  let s := { s with
    config := config
    transportProfile := transportProfile
    modelProfile := modelProfile }
  let s := if reopened then s.resumeCurrentConfig else s
  s.emitSystem .portReconfigured
    ([("previous", .config previous), ("current", .config s.config),
        ("model_profile", modelProfileName s.modelProfile),
        ("port", .str s.config.port), ("source", .str source)] ++
      profileChangeMetadata (some previous) (some s.config) ++
      [("previous_effective", .model previousEffective),
        ("effective", .model s.modelSettings),
        ("previous_transport", .transport previousTransport),
        ("effective_transport", .transport s.transportSettings),
        ("transport_reopened", .bool reopened), ("profile_only", .bool !reopened)])

def commitStagedReconfiguration (s : SlotActor) : SlotActor × Except SlotError Bool :=
  match s.pendingReconfiguration with
  | none => (s, .error .replyDropped)
  | some pending =>
      let s := { s with pendingReconfiguration := none }
      match pending with
      | .add source => (s.commitAdd source, .ok true)
      | .replace config transportProfile modelProfile source _ reopened =>
          (s.applyCommittedReconfiguration config transportProfile modelProfile source
            reopened, .ok true)
      | .remove source => (s.commitRemove source, .ok true)
      | .modelProfile modelProfile =>
          (s.applyCommittedModelProfile modelProfile, .ok true)

def rollbackStagedReconfiguration (s : SlotActor) : SlotActor × Except SlotError Bool :=
  match s.pendingReconfiguration with
  | none => (s, .error .replyDropped)
  | some pending =>
      let s := { s with pendingReconfiguration := none }
      match pending with
      | .add _ => (s, .ok true)
      | .replace _ _ _ _ resumeOnRollback reopened =>
          if reopened && resumeOnRollback then
            (s.resumeCurrentConfig.publishSnapshot, .ok true)
          else
            (s, .ok true)
      | .remove _ => (s.resumeCurrentConfig.publishSnapshot, .ok true)
      | .modelProfile _ => (s, .ok true)

end SlotActor
end SerialPlatform
