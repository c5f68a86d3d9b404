import SerialPlatform.SlotSound

/-!
# Turns of the actor

Whatever input the actor takes, its turn is a sequence of steps which leaves it
sound.  A run is sound because each of its turns is.
-/

namespace SerialPlatform
namespace SlotActor

variable {known : Actor → Prop} {s t : SlotActor}

/-! ## Macros -/

section Macros

variable {hand : List RxSegment} {actor : Actor} {id operationId : Uuid}

theorem advances_finishMacro (h : s.Consistent known) :
    Advances hand Origin.IsInternal known s (s.finishMacro id) :=
  .of_calmly h (s.calmly_finishMacro hand id)

theorem advances_executeMacroStatus (h : s.Consistent known) :
    Advances hand Origin.IsInternal known s (s.executeMacroStatus id).1 := by
  unfold executeMacroStatus
  split <;> exact .silent h rfl

theorem advances_executeMacroCancel {controlId : Uuid} {fence : ℕ}
    (h : s.Consistent known) :
    Advances hand Origin.IsInternal known s
      (s.executeMacroCancel actor id controlId fence).1 := by
  unfold executeMacroCancel
  extract_lets asked
  cases asked.checkMacroOwner actor id with
  | error error => exact .silent h rfl
  | ok info =>
      have hstopped : Advances hand Origin.IsInternal known s
          (if info.status.isTerminal then asked
            else asked.stopMacro .cancelled "macro stopped by its owner") := by
        split_ifs
        · exact .silent h rfl
        · exact .of_calmly h (asked.calmly_stopMacro hand _ _)
      simp only
      split
      · exact .silent h rfl
      · split <;> exact hstopped

theorem advances_executeMacroFinished (h : s.Consistent known) :
    Advances hand Origin.IsInternal known s (s.executeMacroFinished actor id).1 := by
  unfold executeMacroFinished
  split
  · exact .silent h rfl
  · have hfinished : Advances hand Origin.IsInternal known s (s.finishMacro id) :=
      advances_finishMacro h
    exact hfinished.trans (advances_executeMacroStatus hfinished.consistent)

theorem recheckMacroWrite_ok (hcheck : s.recheckMacroWrite actor = .ok ()) :
    s.Gated actor := by
  unfold recheckMacroWrite at hcheck
  exact (ensure_bind hcheck).2

/-- A step of a macro writes at most once, in nobody's name. -/
theorem advances_macroWrite {controlId : Uuid} {fence : ℕ} {data : Bytes}
    {expectedRunId : Option Uuid} {description : Option String}
    {precondition : Option SequenceWritePrecondition} (h : s.Consistent known)
    (hknown : known actor) (hgate : s.Gated actor) :
    Advances hand Origin.IsInternal known s
      (s.execute (.macroStep id) (.write actor controlId fence data (some operationId)
        expectedRunId none description [] none precondition false)).1 := by
  have hexpired := consistent_expireControl h
  refine (advances_expireControl hand h).trans ?_
  have hacts : Acts hand known (Wire known (.macroStep id)) s.expireControl
      (s.expireControl.executeWrite (.macroStep id) actor controlId fence data
        (some operationId) expectedRunId none description [] none precondition false) :=
    acts_executeWrite hand hexpired (fun hfalse => by cases hfalse) hknown
      (gated_expireControl hgate) (fun hfalse => by cases hfalse)
  refine ⟨?_, hacts.2⟩
  have hinternal : Origin.IsInternal (.macroStep id) := rfl
  cases hacts.1 with
  | idle hpath => exact hpath.reaches
  | acted hbefore hact hafter =>
      exact (hbefore.reaches.tail
        (.wire (fun id kind heq => by cases heq) hinternal hact)).trans hafter.reaches

theorem advances_executeMacroWrite {data : Bytes} {precondition : SequenceWritePrecondition}
    (h : s.Consistent known) (hknown : known actor) :
    Advances hand Origin.IsInternal known s
      (s.executeMacroWrite actor id data operationId precondition).1 := by
  unfold executeMacroWrite
  extract_lets asked
  cases asked.checkMacroWrite actor id with
  | error error => exact .silent h rfl
  | ok active =>
      have hasked : asked.Consistent known := h
      obtain ⟨hpath, hconsistent, -⟩ := asked.flushPretriggerRx_spec hand hasked
      cases hflushed : asked.flushPretriggerRx with
      | mk flushed outcome =>
          rw [hflushed] at hpath hconsistent
          have hdrained : Advances hand Origin.IsInternal known s flushed :=
            ⟨hpath.reaches, hconsistent⟩
          cases outcome with
          | error error => exact hdrained
          | ok _ =>
              simp only
              cases hcheck : flushed.ask.recheckMacroWrite actor with
              | error error => exact hdrained.trans (.silent hconsistent rfl)
              | ok _ =>
                  have hgate := recheckMacroWrite_ok hcheck
                  let authorized := flushed.ask.setMacroWriteAuthorized (some id)
                  have hwritten : Advances hand Origin.IsInternal known authorized
                      (authorized.execute (.macroStep id) (.write actor active.controlId
                        active.fence data (some operationId) active.info.runId none
                        (some active.info.description) [] none (some precondition)
                        false)).1 :=
                    advances_macroWrite hconsistent hknown hgate
                  have hrest : Advances hand Origin.IsInternal known flushed _ :=
                    ⟨hwritten.path, hwritten.consistent⟩
                  exact (hdrained.trans hrest).trans (.silent hwritten.consistent rfl)

theorem macroStartReplay_none {fingerprint : WriteFingerprint}
    (hfree : s.macroStartReplay operationId fingerprint = none) :
    s.caches.writeRequestCache operationId = none ∧
      s.caches.executedWriteIds.ids.card < s.caches.executedWriteIds.limit := by
  unfold macroStartReplay at hfree
  cases hcache : s.caches.writeRequestCache operationId with
  | some cached =>
      rw [hcache] at hfree
      cases hfree
  | none =>
      rw [hcache] at hfree
      unfold ExecutedWriteIds.wasExecutedOrReserveable at hfree
      simp only at hfree
      split_ifs at hfree with hmem hfull
      exact ⟨rfl, not_le.mp hfull⟩

theorem checkMacroStart_ok {precondition : Option SequenceWritePrecondition}
    {prepared : PreparedMacro} (hcheck : s.checkMacroStart precondition prepared = .ok ()) :
    s.macros.activeMacro = none := by
  unfold checkMacroStart at hcheck
  exact Option.isNone_iff_eq_none.mp (ensure_bind hcheck).1

theorem mandate_installMacro {controlId : Uuid} {fence : ℕ} {info : MacroExecutionInfo}
    {prepared : PreparedMacro} :
    (s.installMacro actor controlId fence info prepared).mandate = s.mandate :=
  mandate_emit .checkpoint .none [] (some actor) (some info.id) _ _

theorem advances_installMacro {controlId : Uuid} {fence : ℕ} {info : MacroExecutionInfo}
    {prepared : PreparedMacro} (h : s.Consistent known)
    (hidle : s.macros.activeMacro = none) :
    Advances hand Origin.IsInternal known s
      (s.installMacro actor controlId fence info prepared) := by
  unfold installMacro
  extract_lets metadata _ installed
  have hstart : Start known (s.view hand) (installed.view hand) :=
    .startMacro (v := s.view hand) _ hidle
  have hemit := calmly_emit hand (rfl : EventKind.isPlain .checkpoint = true) (some actor)
    (some info.id) metadata installed
  have hinstalled : installed.Consistent known := h
  exact ⟨.head (.start hstart) hemit.routinely.reaches,
    hinstalled.of_mandate (mandate_of_calmly hemit)⟩

theorem advances_executeMacroStart {controlId : Uuid} {fence : ℕ} {daemonEpoch : Uuid}
    {generation : ℕ} {expectedRunId : Option Uuid}
    {precondition : Option SequenceWritePrecondition} {prepared : PreparedMacro}
    (h : s.Consistent known) :
    Advances hand Origin.IsInternal known s
      (s.executeMacroStart actor controlId fence daemonEpoch generation operationId
        expectedRunId precondition prepared).1 := by
  unfold executeMacroStart
  extract_lets asked fingerprint info started result
  cases asked.checkMacroAuthorization actor controlId fence daemonEpoch generation operationId
    expectedRunId with
  | error error => exact .silent h rfl
  | ok _ =>
      cases hfree : asked.macroStartReplay operationId fingerprint with
      | some result => exact .silent h rfl
      | none =>
          cases hcheck : asked.checkMacroStart precondition prepared with
          | error error => exact .silent h rfl
          | ok _ =>
              obtain ⟨hnone, hroom⟩ := macroStartReplay_none hfree
              have hinstalled : Advances hand Origin.IsInternal known s started :=
                (advances_installMacro (s := asked) h (checkMacroStart_ok hcheck)).asked
              have hstanding : started.mandate.standing = asked.mandate.standing :=
                congrArg Mandate.standing (mandate_installMacro (s := asked))
              have hcache : started.caches.writeRequestCache operationId = none :=
                (congrFun (congrArg Standing.writeRequestCache hstanding) operationId).trans
                  hnone
              have hspare : started.caches.executedWriteIds.ids.card <
                  started.caches.executedWriteIds.limit := by
                have hsame : started.caches.executedWriteIds = asked.caches.executedWriteIds :=
                  congrArg Standing.executedWriteIds hstanding
                rw [hsame]
                exact hroom
              exact ⟨hinstalled.path.tail
                  (.keep (keep_cacheWriteResult hand hcache hspare)),
                hinstalled.consistent.cacheWriteResult⟩

theorem advances_executeMacroCommand {command : MacroCommand} (h : s.Consistent known)
    (hknown : known command.actor) :
    Advances hand Origin.IsInternal known s (s.executeMacroCommand command).1 := by
  unfold executeMacroCommand
  cases command.kind with
  | start controlId fence daemonEpoch generation operationId expectedRunId precondition
      prepared => exact advances_executeMacroStart h
  | status id => exact advances_executeMacroStatus h
  | cancel id controlId fence => exact advances_executeMacroCancel h
  | write id data operationId precondition => exact advances_executeMacroWrite h hknown
  | finished id => exact advances_executeMacroFinished h

theorem turns_handleMacroCommand {command : MacroCommand} (h : s.Sound known)
    (hknown : known command.actor) : Turns known s (s.handleMacroCommand command) := by
  unfold handleMacroCommand
  extract_lets executed
  have hexecuted : Turns known s executed.1 :=
    h.advance ((advances_expireControl [] h.consistent).trans
      (advances_executeMacroCommand (consistent_expireControl h.consistent) hknown))
  have hreplied : Calmly (executed.1.view [])
      ((executed.1.record (.macroReply executed.2)).view []) :=
    (Calm.reply (v := executed.1.view []) rfl).calmly
  exact hexecuted.trans
    (hexecuted.sound.advance (.of_calmly hexecuted.sound.consistent hreplied))

end Macros

/-! ## Reconfiguration -/

section Reconfiguration

variable {hand : List RxSegment} {allowed : Origin → Prop}

example : TriggerStatus.isTerminal .armed = false := by decide +kernel

/-- The port is given up together with whatever rests on it. -/
theorem advances_giveUp {status : TriggerStatus} (hterminal : status.isTerminal = true)
    (hmatched : status ≠ .matched) (pendingReason runReason : String) (port : PortState)
    (hport : port.port = s.port.port) (hevents : port.portEvents = s.port.portEvents)
    (h : s.Consistent known) :
    Advances hand allowed known s
      (((s.setPort port).stopPortAndTrigger status).loseControl pendingReason runReason) := by
  let stopped := (s.setPort port).stopPortAndTrigger status
  have hstopped : Routinely (s.view hand) (stopped.view hand) :=
    (s.routinely_setPort hand port hport hevents).trans
      ((s.setPort port).routinely_stopPortAndTrigger hand hterminal hmatched)
  have hmandate : stopped.mandate = (s.setPort port).mandate.offline :=
    mandate_stopPortAndTrigger hterminal hmatched _
  refine .of_routinely (hstopped.trans
    (stopped.routinely_loseControl hand pendingReason runReason)) ?_
  have hepoch : stopped.mandate.standing.control.daemonEpoch =
      stopped.mandate.standing.daemonEpoch := by
    have hheld : s.mandate.standing.control.daemonEpoch = s.mandate.standing.daemonEpoch :=
      Mandate.Consistent.epoch h
    rw [hmandate]
    exact hheld
  unfold Consistent
  rw [mandate_loseControl]
  refine Mandate.Consistent.of_idle rfl rfl hepoch (fun _ => ?_)
  rw [hmandate]
  rfl

theorem advances_announceStopped (wasOnline : Bool) (reason : String)
    (h : s.Consistent known) :
    Advances hand allowed known s (s.announceStopped wasOnline reason) := by
  unfold announceStopped
  split_ifs
  · exact .of_calmly h (s.calmly_emitSystem hand _ rfl _)
  · exact .silent h rfl

theorem advances_setPort {port : PortState} (h : s.Consistent known)
    (hport : port.port = s.port.port) (hevents : port.portEvents = s.port.portEvents)
    (hgeneration : port.generation = s.port.generation)
    (hpaused : port.administrativelyPaused = true →
      s.port.administrativelyPaused = true) :
    Advances hand allowed known s (s.setPort port) := by
  refine .of_routinely (s.routinely_setPort hand port hport hevents) ?_
  have hmandate : (s.setPort port).mandate =
      { s.mandate with standing := (s.setPort port).standing } := by
    have hview := view_setPort [] port s hport hevents
    simp only [mandate, View.mandate, hview]
    rfl
  unfold Consistent
  rw [hmandate]
  exact Mandate.Consistent.standing h rfl hgeneration rfl fun hpause =>
    Mandate.Consistent.paused h (hpaused hpause)

theorem advances_pauseForReconfigure (h : s.Consistent known) :
    Advances hand allowed known s s.pauseForReconfigure := by
  unfold pauseForReconfigure
  extract_lets wasOnline _ paused stopped lost _ settled
  split_ifs
  · exact .silent h rfl
  · have hlost : Advances hand allowed known s lost :=
      advances_giveUp (rfl : TriggerStatus.isTerminal .generationChanged = true) (by decide)
        "port_reconfiguration" "port reconfiguration"
        { s.port with administrativelyPaused := true } rfl rfl h
    have hsettled : Advances hand allowed known lost settled :=
      advances_setPort hlost.consistent rfl rfl rfl fun hpause => hpause
    exact (hlost.trans hsettled).trans
      (advances_announceStopped wasOnline _ hsettled.consistent)

theorem advances_prepareShutdown (h : s.Consistent known) :
    Advances hand allowed known s s.prepareShutdown := by
  unfold prepareShutdown
  extract_lets wasOnline _ paused stopped lost _ settled
  have hlost : Advances hand allowed known s lost :=
    advances_giveUp (rfl : TriggerStatus.isTerminal .portClosed = true) (by decide)
      "daemon_shutdown" "port shutdown" { s.port with administrativelyPaused := true }
      rfl rfl h
  have hsettled : Advances hand allowed known lost settled :=
    advances_setPort hlost.consistent rfl rfl rfl fun hpause => hpause
  exact (hlost.trans hsettled).trans
    (advances_announceStopped wasOnline _ hsettled.consistent)

theorem advances_resumeCurrentConfig (h : s.Consistent known) :
    Advances hand allowed known s s.resumeCurrentConfig := by
  unfold resumeCurrentConfig
  extract_lets asked opens
  have hasked : asked.Consistent known := h
  exact Advances.asked
    (advances_setPort hasked rfl rfl rfl fun hpause => Bool.noConfusion hpause)

theorem advances_publishSnapshot (h : s.Consistent known) :
    Advances hand allowed known s s.publishSnapshot := .silent h rfl

/-- A change of the configuration, or of what is staged. -/
theorem advances_configure (config : SlotConfig)
    (transportProfile : Option TransportProfile) (modelProfile : Option ModelProfile)
    (pending : Option PendingReconfiguration) (h : s.Consistent known) :
    Advances hand allowed known s
      { s with
        config := config
        transportProfile := transportProfile
        modelProfile := modelProfile
        pendingReconfiguration := pending } :=
  ⟨.single (.keep (.configure config transportProfile modelProfile pending)),
    h.of_standing rfl rfl rfl rfl rfl⟩

theorem advances_stage (pending : Option PendingReconfiguration) (h : s.Consistent known) :
    Advances hand allowed known s { s with pendingReconfiguration := pending } :=
  advances_configure s.config s.transportProfile s.modelProfile pending h

theorem advances_stageReconfiguration {config : SlotConfig}
    {transportProfile : Option TransportProfile} {modelProfile : Option ModelProfile}
    {source : String} {resumeOnRollback : Bool} (h : s.Consistent known) :
    Advances hand allowed known s
      (s.stageReconfiguration config transportProfile modelProfile source
        resumeOnRollback).1 := by
  unfold stageReconfiguration
  extract_lets reopened paused
  split_ifs
  · exact .silent h rfl
  · exact .silent h rfl
  · exact .silent h rfl
  · have hpaused : Advances hand allowed known s paused := by
      simp only [paused]
      split_ifs
      · exact advances_pauseForReconfigure h
      · exact .silent h rfl
    exact hpaused.trans (advances_stage _ hpaused.consistent)

theorem advances_stageRemoval {source : String} (h : s.Consistent known) :
    Advances hand allowed known s (s.stageRemoval source).1 := by
  have hpaused : Advances hand allowed known s s.pauseForReconfigure :=
    advances_pauseForReconfigure h
  exact hpaused.trans (advances_stage _ hpaused.consistent)

theorem advances_stageModelProfile {modelProfile : Option ModelProfile}
    (h : s.Consistent known) :
    Advances hand allowed known s (s.stageModelProfile modelProfile).1 := by
  unfold stageModelProfile
  split_ifs
  · exact .silent h rfl
  · exact .silent h rfl
  · exact advances_stage _ h

theorem advances_announce {kind : EventKind} (hplain : kind.isPlain = true)
    (metadata : Metadata) (h : s.Consistent known) :
    Advances hand allowed known s (s.emitSystem kind metadata) :=
  .of_calmly h (s.calmly_emitSystem hand kind hplain metadata)

theorem advances_commitAdd (source : String) (h : s.Consistent known) :
    Advances hand allowed known s (s.commitAdd source) := by
  have hresumed : Advances hand allowed known s s.resumeCurrentConfig :=
    advances_resumeCurrentConfig h
  exact hresumed.trans (advances_announce rfl _ hresumed.consistent)

theorem advances_applyCommittedReconfiguration (config : SlotConfig)
    (transportProfile : Option TransportProfile) (modelProfile : Option ModelProfile)
    (source : String) (reopened : Bool) (h : s.Consistent known) :
    Advances hand allowed known s
      (s.applyCommittedReconfiguration config transportProfile modelProfile source
        reopened) := by
  unfold applyCommittedReconfiguration
  extract_lets previous previousEffective previousTransport changed resumed
  have hchanged : Advances hand allowed known s changed :=
    advances_configure config transportProfile modelProfile s.pendingReconfiguration h
  have hresumed : Advances hand allowed known changed resumed := by
    simp only [resumed]
    split_ifs
    · exact advances_resumeCurrentConfig hchanged.consistent
    · exact .silent hchanged.consistent rfl
  exact (hchanged.trans hresumed).trans (advances_announce rfl _ hresumed.consistent)

theorem advances_applyCommittedModelProfile (modelProfile : Option ModelProfile)
    (h : s.Consistent known) :
    Advances hand allowed known s (s.applyCommittedModelProfile modelProfile) := by
  unfold applyCommittedModelProfile
  extract_lets previousEffective changed
  have hchanged : Advances hand allowed known s changed :=
    advances_configure s.config s.transportProfile modelProfile s.pendingReconfiguration h
  exact hchanged.trans (advances_announce rfl _ hchanged.consistent)

theorem advances_commitStagedReconfiguration (h : s.Consistent known) :
    Advances hand allowed known s s.commitStagedReconfiguration.1 := by
  unfold commitStagedReconfiguration
  cases s.pendingReconfiguration with
  | none => exact .silent h rfl
  | some pending =>
      have hstaged : Advances hand allowed known s { s with pendingReconfiguration := none } :=
        advances_stage none h
      have hs := hstaged.consistent
      cases pending with
      | add source => exact hstaged.trans (advances_commitAdd source hs)
      | replace config transportProfile modelProfile source resumeOnRollback reopened =>
          exact hstaged.trans (advances_applyCommittedReconfiguration config transportProfile
            modelProfile source reopened hs)
      | remove source => exact hstaged.trans (advances_announce rfl _ hs)
      | modelProfile modelProfile =>
          exact hstaged.trans (advances_applyCommittedModelProfile modelProfile hs)

theorem advances_rollbackStagedReconfiguration (h : s.Consistent known) :
    Advances hand allowed known s s.rollbackStagedReconfiguration.1 := by
  unfold rollbackStagedReconfiguration
  cases s.pendingReconfiguration with
  | none => exact .silent h rfl
  | some pending =>
      have hstaged : Advances hand allowed known s { s with pendingReconfiguration := none } :=
        advances_stage none h
      have hresumed := hstaged.trans (advances_resumeCurrentConfig hstaged.consistent)
      have hpublished := hresumed.trans (advances_publishSnapshot hresumed.consistent)
      cases pending with
      | add source => exact hstaged
      | replace config transportProfile modelProfile source resumeOnRollback reopened =>
          simp only
          split_ifs
          · exact hpublished
          · exact hstaged
      | remove source => exact hpublished
      | modelProfile modelProfile => exact hstaged

end Reconfiguration

/-! ## Commands -/

/-- Who sends a command. -/
def Commanded (known : Actor → Prop) : SlotCommand → Prop
  | .request _ request => known request.actor
  | .macroCommand command => known command.actor
  | _ => True

theorem Sound.turns_adminReply (result : Except SlotError Bool) (h : s.Sound known) :
    Turns known s (s.record (.adminReply result)) :=
  h.advance (.of_calmly h.consistent (Calm.reply (v := s.view []) rfl).calmly)

theorem turns_adminReply {done : SlotActor × Except SlotError Bool}
    (hdone : Turns known s done.1) : Turns known s (adminReply done).1 :=
  hdone.trans (hdone.sound.turns_adminReply _)

theorem turns_handleCommand {command : SlotCommand} (h : s.Sound known)
    (hknown : Commanded known command) : Turns known s (s.handleCommand command).1 := by
  have hs := h.consistent
  cases command with
  | request requestId request => exact turns_handleRequest h hknown
  | macroCommand command => exact turns_handleMacroCommand h hknown
  | disconnect actorId =>
      exact h.advance (.of_routinely (s.routinely_handleDisconnect [] actorId)
        (consistent_handleDisconnect actorId hs))
  | stageReconfiguration config transportProfile modelProfile source resumeOnRollback =>
      exact turns_adminReply (h.advance (advances_stageReconfiguration hs))
  | stageModelProfile modelProfile =>
      exact turns_adminReply (h.advance (advances_stageModelProfile hs))
  | stageRemoval source => exact turns_adminReply (h.advance (advances_stageRemoval hs))
  | commitStagedReconfiguration =>
      exact turns_adminReply (h.advance (advances_commitStagedReconfiguration hs))
  | rollbackStagedReconfiguration =>
      exact turns_adminReply (h.advance (advances_rollbackStagedReconfiguration hs))
  | shutdown =>
      have hstopped : Turns known s s.prepareShutdown :=
        h.advance (advances_prepareShutdown hs)
      exact hstopped.trans (hstopped.sound.turns_adminReply (.ok true))

/-! ## Port events -/

theorem Sound.turns_calmly (h : s.Sound known) (hpath : Calmly (s.view []) (t.view [])) :
    Turns known s t :=
  h.advance (.of_calmly h.consistent hpath)

theorem Sound.turns_received {event : PortEvent} (h : s.Sound known)
    (hreceived : s.receivePortEvent = (t, some event)) :
    Turns known s (t.handlePortEvent event) := by
  obtain ⟨hpath, hmandate, -⟩ := receivePortEvent_some [] hreceived
  have ht : t.Consistent known := h.consistent.of_mandate hmandate
  exact h.advance (.of_routinely
    (hpath.routinely.trans (t.routinely_handlePortEvent [] event))
    (consistent_handlePortEvent event ht))

theorem Sound.turns_workersGone (h : s.Sound known)
    (hreceived : s.receivePortEvent = (t, none)) : Turns known s t :=
  h.turns_calmly (receivePortEvent_none [] hreceived).1

theorem turns_handlePortClosed (reason : String) (h : s.Sound known) :
    Turns known s (s.handlePortClosed reason) :=
  h.advance (.of_routinely (s.routinely_handlePortClosed [] reason)
    (consistent_handlePortClosed reason h.consistent))

theorem turns_takePortEvent (h : s.Sound known) : Turns known s s.takePortEvent := by
  unfold takePortEvent
  split_ifs
  · exact h.turns_calmly .refl
  · cases hreceived : s.receivePortEvent with
    | mk received event =>
        cases event with
        | some event => exact h.turns_received hreceived
        | none =>
            have hgone := h.turns_workersGone hreceived
            simp only
            split_ifs
            · exact hgone.trans (turns_handlePortClosed _ hgone.sound)
            · exact hgone

/-! ## The Trigger timer -/

theorem Sound.ask (h : s.Sound known) : Turns known s s.ask :=
  h.advance (.silent h.consistent rfl)

theorem turns_drainQueuedPortEvents (bound : ℕ) (s : SlotActor) (h : s.Sound known) :
    Turns known s (s.drainQueuedPortEvents bound).1 := by
  induction bound generalizing s with
  | zero => exact h.turns_calmly .refl
  | succ bound ih =>
      unfold drainQueuedPortEvents
      extract_lets asked
      cases s.port.portEvents with
      | none => exact h.turns_calmly .refl
      | some events =>
          have hasked : Turns known s asked := h.ask
          simp only
          split_ifs
          · cases hreceived : asked.receivePortEvent with
            | mk received event =>
                cases event with
                | none =>
                    have hgone := hasked.trans (hasked.sound.turns_workersGone hreceived)
                    exact hgone.trans (turns_handlePortClosed _ hgone.sound)
                | some event =>
                    have hhandled := hasked.trans (hasked.sound.turns_received hreceived)
                    simp only
                    split_ifs
                    · exact hhandled
                    · exact hhandled.trans (ih _ hhandled.sound)
          · exact hasked

theorem turns_drainQueuedCommands (disconnected : Bool) (bound : ℕ)
    (queued : List SlotCommand) (s : SlotActor) (h : s.Sound known)
    (hknown : ∀ command ∈ queued, Commanded known command) :
    Turns known s (s.drainQueuedCommands disconnected bound queued).1 := by
  induction bound generalizing queued s with
  | zero => exact h.turns_calmly .refl
  | succ bound ih =>
      cases queued with
      | nil =>
          unfold drainQueuedCommands
          split_ifs
          · exact h.turns_calmly (s.calmly_requestTriggerStop [] rfl (by decide))
          · exact h.turns_calmly .refl
      | cons command queued =>
          have hhandled : Turns known s (s.handleCommand command).1 :=
            turns_handleCommand h (hknown command List.mem_cons_self)
          have hrest : ∀ next ∈ queued, Commanded known next :=
            fun next hmem => hknown next (List.mem_cons_of_mem _ hmem)
          simp only [drainQueuedCommands]
          split_ifs
          · exact hhandled
          · exact hhandled
          · exact hhandled.trans (ih queued _ hhandled.sound hrest)

theorem turns_fireTriggerTimer (h : s.Sound known) : Turns known s s.fireTriggerTimer := by
  unfold fireTriggerTimer
  extract_lets ready
  have hready : Turns known s ready :=
    h.advance ((advances_expireControl [] h.consistent).trans
      (.silent (consistent_expireControl h.consistent) rfl))
  cases ready.trigger.activeTrigger with
  | none => exact hready
  | some trigger =>
      refine hready.trans (hready.sound.turns_calmly ?_)
      simp only
      split_ifs
      · exact ready.calmly_finishStoppedTriggerIfIdle []
      · exact ready.calmly_requestTriggerStop [] trigger.deadlineStatus_terminal
          trigger.deadlineStatus_ne_matched
      · exact ready.calmly_beginTriggerWrite []
      · exact .refl

theorem turns_handleTriggerTimer {queued : List SlotCommand} {disconnected : Bool}
    (h : s.Sound known) (hknown : ∀ command ∈ queued, Commanded known command) :
    Turns known s (s.handleTriggerTimer queued disconnected).1 := by
  unfold handleTriggerTimer
  have hevents := turns_drainQueuedPortEvents portEventQueue s h
  generalize s.drainQueuedPortEvents portEventQueue = drained at hevents ⊢
  rcases drained with ⟨drained, ended⟩
  cases ended with
  | finished => exact hevents
  | stopped => exact hevents
  | empty =>
      have hcommands := hevents.trans (turns_drainQueuedCommands disconnected commandQueue
        queued drained hevents.sound hknown)
      simp only
      generalize drained.drainQueuedCommands disconnected commandQueue queued = handled
        at hcommands ⊢
      rcases handled with ⟨handled, ended⟩
      cases ended with
      | empty => exact hcommands.trans (turns_fireTriggerTimer hcommands.sound)
      | finished => exact hcommands
      | stopped => exact hcommands

theorem turns_takeTriggerTimer {queued : List SlotCommand} {disconnected : Bool}
    (h : s.Sound known) (hknown : ∀ command ∈ queued, Commanded known command) :
    Turns known s (s.takeTriggerTimer queued disconnected).1 := by
  unfold takeTriggerTimer
  extract_lets asked
  have hasked : Turns known s asked := h.ask
  cases asked.trigger.activeTrigger.bind ActiveTrigger.nextDeadline with
  | none => exact hasked
  | some deadline =>
      simp only
      split_ifs
      · exact hasked.trans (turns_handleTriggerTimer hasked.sound hknown)
      · exact hasked

/-! ## Maintenance and acknowledgements -/

theorem turns_setPort {port : PortState} (h : s.Sound known)
    (hport : port.port = s.port.port) (hevents : port.portEvents = s.port.portEvents)
    (hgeneration : port.generation = s.port.generation)
    (hpaused : port.administrativelyPaused = true →
      s.port.administrativelyPaused = true) :
    Turns known s ((s.setPort port).publishSnapshot) := by
  have hset : Turns known s (s.setPort port) :=
    h.advance (advances_setPort h.consistent hport hevents hgeneration hpaused)
  exact hset.trans (hset.sound.advance (advances_publishSnapshot hset.sound.consistent))

theorem turns_silenceTarget (h : s.Sound known) : Turns known s s.silenceTarget := by
  unfold silenceTarget
  extract_lets asked
  have hasked : Turns known s asked := h.ask
  split_ifs
  · exact hasked.trans (turns_setPort hasked.sound rfl rfl rfl fun hpause => hpause)
  · exact hasked

theorem turns_maintain (h : s.Sound known) : Turns known s s.maintain := by
  unfold maintain
  extract_lets ready
  have hreaped : Turns known s s.reapMacro := h.turns_calmly (s.calmly_reapMacro [])
  have hexpired : Turns known s.reapMacro s.reapMacro.expireControl :=
    hreaped.sound.advance (advances_expireControl [] hreaped.sound.consistent)
  have hpending : Turns known s.reapMacro.expireControl _ :=
    hexpired.sound.advance (advances_expirePendingRunStart [] hexpired.sound.consistent)
  have hsilenced := turns_silenceTarget hpending.sound
  have hready : Turns known s ready :=
    (((hreaped.trans hexpired).trans hpending).trans hsilenced).trans hsilenced.sound.ask
  split_ifs with hopens
  · simp only [Bool.and_eq_true, Option.isNone_iff_eq_none, Bool.not_eq_true'] at hopens
    have hopened : Advances [] Origin.IsInternal known ready ready.tryOpen := by
      obtain ⟨hpath, -, hconsistent⟩ := tryOpen_spec [] hready.sound.consistent
        hopens.1.1.1.1 hopens.1.1.1.2
      exact ⟨hpath, hconsistent⟩
    exact hready.trans (hready.sound.advance hopened)
  · exact hready

theorem turns_takeJournalAck (index : ℕ) (h : s.Sound known) :
    Turns known s (s.takeJournalAck index) := by
  unfold takeJournalAck
  extract_lets asked
  have hasked : Turns known s asked := h.ask
  cases asked.timeline.pendingAcks[index]? with
  | none => exact hasked
  | some pending =>
      cases houtcomes : pending.outcomes with
      | nil =>
          simp only [houtcomes]
          exact hasked
      | cons outcome rest =>
          simp only [houtcomes]
          have hheard : ∀ acks, Calmly (asked.view [])
              ((({ asked with timeline.pendingAcks := acks } : SlotActor).handleJournalAckResult
                pending.seq outcome).view []) := fun acks =>
            calmly_handleJournalAckResult [] pending.seq outcome
              { asked with timeline.pendingAcks := acks }
          exact hasked.trans (hasked.sound.turns_calmly (hheard _))

/-! ## Turns and runs -/

/-- Who sends the commands of an input. -/
def Admits (known : Actor → Prop) : TurnInput → Prop
  | .command command => Commanded known command
  | .triggerTimer queued _ => ∀ command ∈ queued, Commanded known command
  | _ => True

theorem turns_turn {input : TurnInput} (h : s.Sound known) (hknown : Admits known input) :
    Turns known s (s.turn input).1 := by
  cases input with
  | command command => exact turns_handleCommand h hknown
  | portEvent => exact turns_takePortEvent h
  | triggerWriteResult => exact h.turns_calmly (s.calmly_receiveTriggerWriteResult [])
  | journalAck index => exact turns_takeJournalAck index h
  | triggerTimer queued disconnected => exact turns_takeTriggerTimer h hknown
  | maintenance => exact turns_maintain h
  | macroProgress progress => exact h.turns_calmly (s.calmly_macroProgress [] progress)
  | hangup => exact h.turns_calmly .refl

theorem turns_start (h : s.Sound known) : Turns known s s.start := by
  unfold start
  split_ifs
  · exact turns_setPort h rfl rfl rfl fun hpause => hpause
  · exact h.turns_calmly .refl

end SlotActor
end SerialPlatform
