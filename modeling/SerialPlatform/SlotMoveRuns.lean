import SerialPlatform.SlotMoves

/-!
# Every turn is made of moves

The requests, the macros, the staged changes and the loop itself are followed to the
moves which they consist of.
-/

namespace SerialPlatform
namespace SlotActor

/-! ## Requests -/

section Requests

theorem moves_emitLeaseRevoked (actor : Actor) (lease : ControlLease) (s : SlotActor) :
    Moves s (s.emitLeaseRevoked actor lease) := s.moves_emit (by decide) _ _ _ _ _

theorem moves_takeOver (actor : Actor) (revoked granted : ControlLease) (s : SlotActor) :
    Moves s (s.takeOver actor revoked granted) := by
  unfold takeOver
  extract_lets cancelled owned loosened aborted
  have hcancelled : Moves s cancelled := s.moves_cancelPendingRunStart _
  have hloosened : Moves cancelled loosened :=
    moves_ite (cancelled.moves_requestTriggerStop _ _) .refl
  have haborted : Moves loosened aborted := loosened.moves_abortRun _ _
  exact ((hcancelled.trans hloosened).trans haborted).trans
    ((aborted.moves_emitLeaseRevoked actor revoked).trans (moves_emitControlGranted _ _))

theorem moves_executeAcquire (actor : Actor) (mode : ControlMode) (ttlMs : ℕ)
    (s : SlotActor) : Moves s (s.executeAcquire actor mode ttlMs).1 := by
  unfold executeAcquire
  split
  · exact .refl
  · extract_lets asked acquired held
    have hheld : Moves s held := s.moves_ask.trans (asked.moves_setControl acquired.1)
    split
    · exact hheld.trans (held.moves_emitControlGranted _)
    · exact hheld
    · exact hheld
    · exact hheld.trans (held.moves_takeOver _ _ _)

theorem moves_executeRenew (actor : Actor) (controlId : Uuid) (fence ttlMs : ℕ)
    (s : SlotActor) : Moves s (s.executeRenew actor controlId fence ttlMs).1 := by
  unfold executeRenew
  extract_lets asked renewed
  split
  · exact s.moves_ask
  · exact (s.moves_ask.trans (asked.moves_setControl renewed.1)).trans
      (moves_publishSnapshot _)

theorem moves_executeRelease (actor : Actor) (controlId : Uuid) (fence : ℕ) (s : SlotActor) :
    Moves s (s.executeRelease actor controlId fence).1 := by
  unfold executeRelease
  extract_lets asked released held cancelled loosened aborted
  split
  · exact s.moves_ask
  · have hheld : Moves s held := s.moves_ask.trans (asked.moves_setControl released.1)
    have hcancelled : Moves held cancelled := held.moves_cancelPendingRunStart _
    have hloosened : Moves cancelled loosened := cancelled.moves_requestTriggerStop _ _
    have haborted : Moves loosened aborted := loosened.moves_abortRun _ _
    exact ((hheld.trans hcancelled).trans (hloosened.trans haborted)).trans
      (aborted.moves_emitRelease (by decide) _)

theorem moves_emitRunStarted (actor : Actor) (run : RunInfo) (s : SlotActor) :
    Moves s (s.emitRunStarted actor run) := s.moves_emitInner (by decide) _ _ _ _ _ _

theorem moves_grantRunStart (actor : Actor) (requestId : Uuid) (label : String)
    (metadata : JsonMap) (ttlMs : ℕ) (control : ControlState) (lease : ControlLease)
    (wallNow : ℤ) (s : SlotActor) :
    Moves s (s.grantRunStart actor requestId label metadata ttlMs control lease wallNow).1 := by
  unfold grantRunStart
  extract_lets installed run granted started approval announced
  have hinstalled : Moves s installed.1 :=
    (s.moves_setControl control).trans (moves_installRun _ _ _ _ _)
  have hgranted : Moves installed.1 granted := installed.1.moves_emitControlGranted lease
  have hstarted : Moves granted started := granted.moves_emitRunStarted actor run
  exact ((hinstalled.trans hgranted).trans hstarted).trans
    (started.moves_emit (by decide) _ _ _ _ _)

theorem moves_askRunStart (actor : Actor) (requestId : Uuid) (label : String)
    (metadata : JsonMap) (ttlMs : ℕ) (current : ControlLease) (now : ℕ) (wallNow : ℤ)
    (s : SlotActor) :
    Moves s (s.askRunStart actor requestId label metadata ttlMs current now wallNow).1 := by
  unfold askRunStart
  extract_lets timeout expires approval deadline _ pending
  have hpending : Moves s pending := moves_quiet ⟨rfl, rfl, rfl⟩
  exact hpending.trans (pending.moves_emit (by decide) _ _ _ _ _)

theorem moves_executeRequestRunStart (actor : Actor) (requestId : Uuid) (label : String)
    (metadata : JsonMap) (ttlMs : ℕ) (s : SlotActor) :
    Moves s (s.executeRequestRunStart actor requestId label metadata ttlMs).1 := by
  unfold executeRequestRunStart
  split
  · exact .refl
  · split
    · unfold answerPendingRunStart
      split_ifs <;> exact .refl
    · extract_lets asked now wallNow granted
      split
      · split
        · exact s.moves_ask
        · exact s.moves_ask.trans (asked.moves_grantRunStart _ _ _ _ _ _ _ _)
      · split_ifs
        · exact s.moves_ask.trans (asked.moves_askRunStart _ _ _ _ _ _ _ _)
        · exact s.moves_ask

theorem moves_closeRunStart {kind : EventKind} (hkind : kind ≠ .loggingDegraded)
    (approval : PendingRunStartApproval) (actor : Actor) (result : CommandResult)
    (s : SlotActor) : Moves s (s.closeRunStart kind approval actor result).1 :=
  s.moves_endApproval hkind approval result _ _ _

theorem moves_emitRunStartTerminal {kind : EventKind} (hkind : kind ≠ .loggingDegraded)
    (approval : PendingRunStartApproval) (actor : Option Actor) (run : Option RunInfo)
    (s : SlotActor) : Moves s (s.emitRunStartTerminal kind approval actor run) :=
  s.moves_emitInner hkind _ _ _ _ _ _

theorem moves_approveRunStart (actor : Actor) (approval : PendingRunStartApproval)
    (revoked lease : ControlLease) (s : SlotActor) :
    Moves s (s.approveRunStart actor approval revoked lease).1 := by
  unfold approveRunStart
  extract_lets _ closed installed run granted started result cached
  have hinstalled : Moves s installed.1 :=
    s.moves_closeApproval.trans (closed.moves_installRun _ _ _ _)
  have hgranted : Moves installed.1 granted :=
    (installed.1.moves_emitLeaseRevoked actor revoked).trans (moves_emitControlGranted _ _)
  have hstarted : Moves granted started := granted.moves_emitRunStarted _ run
  have hcached : Moves started cached := started.moves_cacheRunStartTerminal _ _
  exact ((hinstalled.trans hgranted).trans (hstarted.trans hcached)).trans
    (cached.moves_emitRunStartTerminal (by decide) _ _ _)

theorem moves_executeDecideRunStart (actor : Actor) (approvalId : Uuid)
    (decision : RunStartDecision) (s : SlotActor) :
    Moves s (s.executeDecideRunStart actor approvalId decision).1 := by
  unfold executeDecideRunStart
  split
  · exact .refl
  · split
    · exact s.moves_closeRunStart (by decide) _ _ _
    · split
      · exact s.moves_cancelPendingRunStart _
      · extract_lets asked transfer
        split
        · exact s.moves_ask.trans (asked.moves_cancelPendingRunStart _)
        · exact (s.moves_ask.trans (asked.moves_setControl transfer.1)).trans
            (moves_approveRunStart _ _ _ _ _)

theorem moves_executeCancelRunStart (actor : Actor) (approvalId : Uuid) (s : SlotActor) :
    Moves s (s.executeCancelRunStart actor approvalId).1 := by
  unfold executeCancelRunStart
  split
  · exact .refl
  · exact s.moves_closeRunStart (by decide) _ _ _

theorem moves_executeStartRun (actor : Actor) (controlId : Uuid) (fence : ℕ) (label : String)
    (metadata : JsonMap) (s : SlotActor) :
    Moves s (s.executeStartRun actor controlId fence label metadata).1 := by
  unfold executeStartRun
  extract_lets asked run _ started
  split
  · exact s.moves_ask
  · have hstarted : Moves asked started := moves_quiet ⟨rfl, rfl, rfl⟩
    exact (s.moves_ask.trans hstarted).trans (started.moves_emit (by decide) _ _ _ _ _)

theorem moves_executeEndRun (actor : Actor) (controlId : Uuid) (fence : ℕ) (runId : Uuid)
    (s : SlotActor) : Moves s (s.executeEndRun actor controlId fence runId).1 := by
  unfold executeEndRun
  extract_lets asked loosened _ closed
  split
  · exact s.moves_ask
  · extract_lets ended
    have hloosened : Moves asked loosened := asked.moves_requestTriggerStop _ _
    have hclosed : Moves loosened closed := loosened.moves_closeRun
    exact ((s.moves_ask.trans hloosened).trans hclosed).trans
      (closed.moves_emitInner (by decide) _ _ _ _ _ _)

theorem moves_executeCheckpoint (actor : Actor) (controlId : Uuid) (fence : ℕ)
    (label : String) (s : SlotActor) :
    Moves s (s.executeCheckpoint actor controlId fence label).1 := by
  unfold executeCheckpoint
  extract_lets asked
  split
  · exact s.moves_ask
  · split_ifs
    · exact s.moves_ask
    · exact s.moves_ask.trans (asked.moves_emit (by decide) _ _ _ _ _)

theorem moves_executeAcknowledgeRunContext (actor : Actor) (runId : Uuid)
    (revision throughSeq : ℕ) (s : SlotActor) :
    Moves s (s.executeAcknowledgeRunContext actor runId revision throughSeq).1 := by
  unfold executeAcknowledgeRunContext
  extract_lets asked
  split
  · exact s.moves_ask
  · extract_lets context covered recorded
    have hcovered : Moves asked covered := moves_quiet ⟨rfl, rfl, rfl⟩
    have hrecorded : Moves covered recorded := covered.moves_record rfl
    exact ((s.moves_ask.trans hcovered).trans hrecorded).trans recorded.moves_publishSnapshot

theorem moves_executeRecordCommandCapture (actor : Actor) (report : CommandCaptureReport)
    (s : SlotActor) : Moves s (s.executeRecordCommandCapture actor report).1 := by
  unfold executeRecordCommandCapture
  split
  · exact .refl
  · exact s.moves_emitInner (by decide) _ _ _ _ _ _

end Requests

/-! ## Physical actions -/

section Physical

theorem moves_writeToPort (origin : Origin) (actor : Actor) (data : Bytes)
    (pacing : WritePacing) (s : SlotActor) :
    Moves s (s.writeToPort origin actor data pacing).1 := by
  unfold writeToPort
  split
  · exact .refl
  · extract_lets asked run
    split_ifs
    · exact s.moves_ask
    · exact s.moves_ask.trans (asked.moves_record rfl)

theorem moves_breakOnPort (origin : Origin) (actor : Actor) (s : SlotActor) :
    Moves s (s.breakOnPort origin actor).1 := by
  unfold breakOnPort
  split
  · exact .refl
  · extract_lets asked outcome
    split_ifs
    · exact s.moves_ask
    · exact s.moves_ask.trans (asked.moves_record rfl)

theorem moves_leaseForHumanCommand (actor : Actor) (s : SlotActor) :
    Moves s (s.leaseForHumanCommand actor).1 := by
  unfold leaseForHumanCommand
  extract_lets asked granted
  split
  · split
    · exact s.moves_ask
    · exact (s.moves_ask.trans (asked.moves_setControl granted.1)).trans
        (moves_emitControlGranted _ _)
  · split_ifs
    · split
      · exact s.moves_ask
      · exact s.moves_ask
    · split
      · exact s.moves_ask
      · split_ifs
        · exact s.moves_ask
        · split
          · exact s.moves_ask
          · exact s.moves_ask
    · exact s.moves_ask

theorem moves_quietenForHumanCommand (mode : HumanCommandMode) (s : SlotActor) :
    Moves s (s.quietenForHumanCommand mode).1 := by
  unfold quietenForHumanCommand
  extract_lets stopped
  have hstopped : Moves s stopped := s.moves_stopMacro _ _
  split_ifs
  · split
    · exact hstopped.trans stopped.moves_quiesceTriggerForHumanCommand
    · exact hstopped
  · exact hstopped

theorem moves_noteIntervention (runId : Uuid) (s : SlotActor) :
    Moves s (s.noteIntervention runId) := moves_quiet ⟨rfl, rfl, rfl⟩

theorem moves_finishHumanCommand (actor : Actor) (data : Bytes) (operationId : Option Uuid)
    (description : Option String) (input : Option HumanLineInput) (lease : HumanCommandLease)
    (outcome : PortWriteOutcome) (s : SlotActor) :
    Moves s
      (s.finishHumanCommand actor data operationId description input lease outcome).1 := by
  unfold finishHumanCommand
  split_ifs
  · unfold emitHumanTx
    split
    · exact (s.moves_noteIntervention _).trans (moves_emit _ (by decide) _ _ _ _ _)
    · exact s.moves_emit (by decide) _ _ _ _ _
  · exact .refl

theorem moves_performHumanCommand (origin : Origin) (actor : Actor) (data : Bytes)
    (operationId : Option Uuid) (description : Option String) (input : Option HumanLineInput)
    (lease : HumanCommandLease) (s : SlotActor) :
    Moves s
      (s.performHumanCommand origin actor data operationId description input lease).1 := by
  unfold performHumanCommand
  extract_lets asked
  split
  · exact s.moves_ask
  · rename_i pacing _
    have hwritten := asked.moves_writeToPort origin actor data pacing
    split
    · rename_i t error heq
      rw [heq] at hwritten
      exact s.moves_ask.trans hwritten
    · rename_i t heq
      rw [heq] at hwritten
      exact s.moves_ask.trans hwritten
    · rename_i t outcome heq
      rw [heq] at hwritten
      exact (s.moves_ask.trans hwritten).trans (t.moves_finishHumanCommand _ _ _ _ _ _ _)

theorem moves_executeSendHumanCommand (origin : Origin) (actor : Actor)
    (expectedGeneration : ℕ) (data : Bytes) (operationId : Option Uuid)
    (description : Option String) (input : Option HumanLineInput) (s : SlotActor) :
    Moves s (s.executeSendHumanCommand origin actor expectedGeneration data operationId
      description input).1 := by
  unfold executeSendHumanCommand
  split
  · exact .refl
  · have hleased := s.moves_leaseForHumanCommand actor
    split
    · rename_i t error heq
      rw [heq] at hleased
      exact hleased
    · rename_i t lease heq
      rw [heq] at hleased
      have hquiet := t.moves_quietenForHumanCommand lease.mode
      split
      · rename_i u error hequiet
        rw [hequiet] at hquiet
        exact hleased.trans hquiet
      · rename_i u hequiet
        rw [hequiet] at hquiet
        exact (hleased.trans hquiet).trans (u.moves_performHumanCommand _ _ _ _ _ _ _)

theorem moves_finishWrite (actor : Actor) (data : Bytes) (operationId : Option Uuid)
    (cooperative : Bool) (metadata : Metadata) (outcome : PortWriteOutcome) (s : SlotActor) :
    Moves s (s.finishWrite actor data operationId cooperative metadata outcome).1 := by
  unfold finishWrite
  split_ifs
  · extract_lets eventSeq emitted
    show Moves s emitted
    simp only [emitted]
    unfold emitWriteTx
    extract_lets whole
    split
    · exact (s.moves_noteIntervention _).trans (moves_emit _ (by decide) _ _ _ _ _)
    · exact s.moves_emit (by decide) _ _ _ _ _
  · exact .refl

theorem moves_executeWrite (origin : Origin) (actor : Actor) (controlId : Uuid) (fence : ℕ)
    (data : Bytes) (operationId expectedRunId : Option Uuid) (pacing : Option WritePacing)
    (description : Option String) (commandCaptureMatchers : List CommandCaptureMatcher)
    (commandSequence : Option CommandSequenceAuditContext)
    (sequencePrecondition : Option SequenceWritePrecondition) (cooperative : Bool)
    (s : SlotActor) :
    Moves s (s.executeWrite origin actor controlId fence data operationId expectedRunId pacing
      description commandCaptureMatchers commandSequence sequencePrecondition cooperative).1 := by
  unfold executeWrite
  extract_lets asked
  split
  · exact s.moves_ask
  · rename_i pacing _
    have hwritten := asked.moves_writeToPort origin actor data pacing
    split
    · rename_i t error heq
      rw [heq] at hwritten
      exact s.moves_ask.trans hwritten
    · rename_i t heq
      rw [heq] at hwritten
      exact s.moves_ask.trans hwritten
    · rename_i t outcome heq
      rw [heq] at hwritten
      exact (s.moves_ask.trans hwritten).trans (t.moves_finishWrite _ _ _ _ _ _)

theorem moves_executeSendBreak (origin : Origin) (actor : Actor) (controlId : Uuid)
    (fence durationMs : ℕ) (operationId expectedRunId : Option Uuid)
    (sequencePrecondition : Option SequenceWritePrecondition) (s : SlotActor) :
    Moves s (s.executeSendBreak origin actor controlId fence durationMs operationId
      expectedRunId sequencePrecondition).1 := by
  unfold executeSendBreak
  extract_lets asked
  split
  · exact s.moves_ask
  · have hbroken := asked.moves_breakOnPort origin actor
    split
    · rename_i t error heq
      rw [heq] at hbroken
      exact s.moves_ask.trans hbroken
    · rename_i t heq
      rw [heq] at hbroken
      exact s.moves_ask.trans hbroken
    · rename_i t outcome heq
      rw [heq] at hbroken
      split
      · exact s.moves_ask.trans hbroken
      · exact s.moves_ask.trans hbroken
      · exact (s.moves_ask.trans hbroken).trans (t.moves_emit (by decide) _ _ _ _ _)

theorem moves_setArming (arming : Bool) (s : SlotActor) : Moves s (s.setArming arming) :=
  moves_quiet ⟨rfl, rfl, rfl⟩

theorem moves_armTrigger (origin : Origin) (trigger : ActiveTrigger) (s : SlotActor) :
    Moves s (s.armTrigger origin trigger) := by
  unfold armTrigger
  extract_lets armed
  have harmed : Moves s armed := (s.moves_setTrigger trigger).trans (moves_record _ rfl)
  exact harmed.trans (armed.moves_emitInner (by decide) _ _ _ _ _ _)

/-- The state in which a Trigger is checked for the last time. -/
theorem moves_flushedForTrigger (s : SlotActor) :
    Moves s ((s.setArming true).flushPretriggerRx.1.setArming false) :=
  ((s.moves_setArming true).trans (moves_flushPretriggerRx _)).trans (moves_setArming _ _)

theorem moves_executeStartTrigger (origin : Origin) (actor : Actor) (controlId : Uuid)
    (fence : ℕ) (daemonEpoch : Uuid) (generation : ℕ)
    (operationId expectedRunId : Option Uuid)
    (sequencePrecondition : Option SequenceWritePrecondition) (spec : TriggerSpec)
    (s : SlotActor) :
    Moves s (s.executeStartTrigger origin actor controlId fence daemonEpoch generation
      operationId expectedRunId sequencePrecondition spec).1 := by
  unfold executeStartTrigger
  extract_lets asked flushed waiting checked armed trigger
  split
  · exact s.moves_ask
  · have hwaiting : Moves s waiting := s.moves_ask.trans asked.moves_flushedForTrigger
    split
    · exact hwaiting
    · have hchecked : Moves s checked := hwaiting.trans waiting.moves_ask
      split
      · exact hchecked
      · exact (hchecked.trans checked.moves_ask).trans (armed.moves_armTrigger origin trigger)

theorem moves_executeTriggerStatus (daemonEpoch : Uuid) (generation : ℕ) (triggerId : Uuid)
    (s : SlotActor) : Moves s (s.executeTriggerStatus daemonEpoch generation triggerId).1 := by
  unfold executeTriggerStatus
  extract_lets found
  clear_value found
  cases found with
  | error error => exact .refl
  | ok trigger => exact .refl

theorem moves_executeCancelTrigger (actor : Actor) (controlId : Uuid) (fence : ℕ)
    (daemonEpoch : Uuid) (generation : ℕ) (triggerId : Uuid) (s : SlotActor) :
    Moves s
      (s.executeCancelTrigger actor controlId fence daemonEpoch generation triggerId).1 := by
  unfold executeCancelTrigger
  extract_lets found asked stopped
  clear_value found
  cases found with
  | error error => exact .refl
  | ok trigger =>
      simp only
      split_ifs
      · exact .refl
      · have hstopped : Moves s stopped :=
          s.moves_ask.trans (asked.moves_requestTriggerStop _ _)
        split
        · exact s.moves_ask
        · split
          · exact hstopped
          · exact hstopped

theorem moves_execute (origin : Origin) (request : SlotRequest) (s : SlotActor) :
    Moves s (s.execute origin request).1 := by
  unfold execute
  extract_lets expired
  apply s.moves_expireControl.trans
  cases request with
  | acquire actor mode ttlMs => exact expired.moves_executeAcquire _ _ _
  | requestRunStart actor requestId label metadata ttlMs =>
      exact expired.moves_executeRequestRunStart _ _ _ _ _
  | decideRunStart actor approvalId decision => exact expired.moves_executeDecideRunStart _ _ _
  | cancelRunStart actor approvalId => exact expired.moves_executeCancelRunStart _ _
  | renew actor controlId fence ttlMs => exact expired.moves_executeRenew _ _ _ _
  | release actor controlId fence => exact expired.moves_executeRelease _ _ _
  | cancelAcquire actor requestId => exact .refl
  | sendHumanCommand actor expectedGeneration data operationId description input =>
      exact expired.moves_executeSendHumanCommand _ _ _ _ _ _ _
  | write actor controlId fence data operationId expectedRunId pacing description matchers
      sequence precondition cooperative =>
      exact expired.moves_executeWrite _ _ _ _ _ _ _ _ _ _ _ _ _
  | sendBreak actor controlId fence durationMs operationId expectedRunId precondition =>
      exact expired.moves_executeSendBreak _ _ _ _ _ _ _ _
  | startTrigger actor controlId fence daemonEpoch generation operationId expectedRunId
      precondition spec =>
      exact expired.moves_executeStartTrigger _ _ _ _ _ _ _ _ _ _
  | triggerStatus actor daemonEpoch generation triggerId =>
      exact expired.moves_executeTriggerStatus _ _ _
  | cancelTrigger actor controlId fence daemonEpoch generation triggerId =>
      exact expired.moves_executeCancelTrigger _ _ _ _ _ _
  | startRun actor controlId fence label metadata =>
      exact expired.moves_executeStartRun _ _ _ _ _
  | endRun actor controlId fence runId => exact expired.moves_executeEndRun _ _ _ _
  | checkpoint actor controlId fence label => exact expired.moves_executeCheckpoint _ _ _ _
  | acknowledgeRunContext actor runId revision throughSeq =>
      exact expired.moves_executeAcknowledgeRunContext _ _ _ _
  | recordCommandCapture actor report => exact expired.moves_executeRecordCommandCapture _ _

end Physical

/-! ## Macros -/

section Macros

theorem moves_macroProgress (progress : MacroProgress) (s : SlotActor) :
    Moves s (s.macroProgress progress) := by
  unfold macroProgress
  split
  · exact .refl
  · exact moves_quiet ⟨rfl, rfl, rfl⟩

theorem moves_retireMacro (info : MacroExecutionInfo) (s : SlotActor) :
    Moves s (s.retireMacro info) := by
  unfold retireMacro
  exact moves_quiet ⟨rfl, rfl, rfl⟩

theorem moves_finishMacro (id : Uuid) (s : SlotActor) : Moves s (s.finishMacro id) := by
  unfold finishMacro
  extract_lets asked _ closed
  split
  · exact .refl
  · split_ifs
    · exact .refl
    · extract_lets info emitted
      have hclosed : Moves s closed := s.moves_ask.trans (moves_quiet ⟨rfl, rfl, rfl⟩)
      have hemitted : Moves closed emitted := closed.moves_emit (by decide) _ _ _ _ _
      exact (hclosed.trans hemitted).trans (emitted.moves_retireMacro info)

theorem moves_reapMacro (s : SlotActor) : Moves s s.reapMacro := by
  unfold reapMacro
  extract_lets asked _
  split
  · exact s.moves_ask
  · apply moves_ite
    · exact s.moves_ask
    · extract_lets _ gone
      have hgone : Moves asked { asked with macros.activeMacro := some gone } :=
        moves_quiet ⟨rfl, rfl, rfl⟩
      exact (s.moves_ask.trans hgone).trans (moves_finishMacro _ _)

theorem moves_executeMacroStatus (id : Uuid) (s : SlotActor) :
    Moves s (s.executeMacroStatus id).1 := by
  unfold executeMacroStatus
  split <;> exact .refl

theorem moves_executeMacroCancel (actor : Actor) (id controlId : Uuid) (fence : ℕ)
    (s : SlotActor) : Moves s (s.executeMacroCancel actor id controlId fence).1 := by
  unfold executeMacroCancel
  extract_lets asked
  split
  · exact s.moves_ask
  · extract_lets authorized stopped
    have hstopped : Moves s stopped :=
      s.moves_ask.trans (moves_ite .refl (asked.moves_stopMacro _ _))
    clear_value authorized
    cases authorized with
    | error error => exact s.moves_ask
    | ok u =>
        simp only
        split
        · exact hstopped
        · exact hstopped

theorem moves_executeMacroFinished (actor : Actor) (id : Uuid) (s : SlotActor) :
    Moves s (s.executeMacroFinished actor id).1 := by
  unfold executeMacroFinished
  split
  · exact .refl
  · exact (s.moves_finishMacro id).trans (moves_executeMacroStatus _ _)

theorem moves_installMacro (actor : Actor) (controlId : Uuid) (fence : ℕ)
    (info : MacroExecutionInfo) (prepared : PreparedMacro) (s : SlotActor) :
    Moves s (s.installMacro actor controlId fence info prepared) := by
  unfold installMacro
  extract_lets metadata _ installed
  have hinstalled : Moves s installed := moves_quiet ⟨rfl, rfl, rfl⟩
  exact hinstalled.trans (installed.moves_emit (by decide) _ _ _ _ _)

theorem moves_executeMacroStart (actor : Actor) (controlId : Uuid) (fence : ℕ)
    (daemonEpoch : Uuid) (generation : ℕ) (operationId : Uuid) (expectedRunId : Option Uuid)
    (precondition : Option SequenceWritePrecondition) (prepared : PreparedMacro)
    (s : SlotActor) :
    Moves s (s.executeMacroStart actor controlId fence daemonEpoch generation operationId
      expectedRunId precondition prepared).1 := by
  unfold executeMacroStart
  extract_lets asked fingerprint info installed result
  split
  · exact s.moves_ask
  · split
    · exact s.moves_ask
    · split
      · exact s.moves_ask
      · have hinstalled : Moves s installed :=
          s.moves_ask.trans (asked.moves_installMacro _ _ _ _ _)
        exact hinstalled.trans (installed.moves_cacheWriteResult _ _ _)

theorem moves_executeMacroWrite (actor : Actor) (id : Uuid) (data : Bytes)
    (operationId : Uuid) (precondition : SequenceWritePrecondition) (s : SlotActor) :
    Moves s (s.executeMacroWrite actor id data operationId precondition).1 := by
  unfold executeMacroWrite
  extract_lets asked
  split
  · exact s.moves_ask
  · have hflushed := asked.moves_flushPretriggerRx
    split
    · rename_i t error heq
      rw [heq] at hflushed
      exact s.moves_ask.trans hflushed
    · rename_i t heq
      rw [heq] at hflushed
      have hchecked : Moves s t.ask := (s.moves_ask.trans hflushed).trans t.moves_ask
      extract_lets checked authorized executed
      split
      · exact hchecked
      · have hauthorized : Moves checked authorized := moves_quiet ⟨rfl, rfl, rfl⟩
        have hexecuted : Moves authorized executed.1 := authorized.moves_execute _ _
        exact ((hchecked.trans hauthorized).trans hexecuted).trans
          (moves_quiet ⟨rfl, rfl, rfl⟩)

theorem moves_handleMacroCommand (command : MacroCommand) (s : SlotActor) :
    Moves s (s.handleMacroCommand command) := by
  unfold handleMacroCommand
  extract_lets executed
  have hexecuted : Moves s.expireControl executed.1 := by
    simp only [executed]
    unfold executeMacroCommand
    cases command.kind with
    | start controlId fence daemonEpoch generation operationId expectedRunId precondition
        prepared => exact moves_executeMacroStart _ _ _ _ _ _ _ _ _ _
    | status id => exact moves_executeMacroStatus _ _
    | cancel id controlId fence => exact moves_executeMacroCancel _ _ _ _ _
    | write id data operationId precondition => exact moves_executeMacroWrite _ _ _ _ _ _
    | finished id => exact moves_executeMacroFinished _ _ _
  exact (s.moves_expireControl.trans hexecuted).trans (moves_record _ rfl)

end Macros

/-! ## Staged changes -/

section Changes

theorem moves_announceStopped (wasOnline : Bool) (reason : String) (s : SlotActor) :
    Moves s (s.announceStopped wasOnline reason) := by
  unfold announceStopped
  exact moves_ite (s.moves_emitSystem (by decide) _) s.moves_publishSnapshot

theorem moves_pauseForReconfigure (s : SlotActor) : Moves s s.pauseForReconfigure := by
  unfold pauseForReconfigure
  extract_lets wasOnline _ paused stopped lost _ disabled
  apply moves_ite .refl
  have hstopped : Moves s stopped :=
    (s.moves_setPort _).trans (paused.moves_stopPortAndTrigger _)
  have hlost : Moves stopped lost := stopped.moves_loseControl _ _
  have hdisabled : Moves lost disabled := lost.moves_setPort _
  exact ((hstopped.trans hlost).trans hdisabled).trans (disabled.moves_announceStopped _ _)

theorem moves_prepareShutdown (s : SlotActor) : Moves s s.prepareShutdown := by
  unfold prepareShutdown
  extract_lets wasOnline _ paused stopped lost _ disabled
  have hstopped : Moves s stopped :=
    (s.moves_setPort _).trans (paused.moves_stopPortAndTrigger _)
  have hlost : Moves stopped lost := stopped.moves_loseControl _ _
  have hdisabled : Moves lost disabled := lost.moves_setPort _
  exact ((hstopped.trans hlost).trans hdisabled).trans (disabled.moves_announceStopped _ _)

theorem moves_resumeCurrentConfig (s : SlotActor) : Moves s s.resumeCurrentConfig :=
  moves_quiet ⟨rfl, rfl, rfl⟩

theorem moves_setPending (s : SlotActor) (pending : Option PendingReconfiguration) :
    Moves s { s with pendingReconfiguration := pending } := moves_quiet ⟨rfl, rfl, rfl⟩

theorem moves_stageReconfiguration (config : SlotConfig)
    (transportProfile : Option TransportProfile) (modelProfile : Option ModelProfile)
    (source : String) (resumeOnRollback : Bool) (s : SlotActor) :
    Moves s (s.stageReconfiguration config transportProfile modelProfile source
      resumeOnRollback).1 := by
  unfold stageReconfiguration
  extract_lets reopened paused
  split_ifs
  · exact .refl
  · exact .refl
  · exact .refl
  · have hpaused : Moves s paused := moves_ite s.moves_pauseForReconfigure .refl
    exact hpaused.trans (paused.moves_setPending _)

theorem moves_stageRemoval (source : String) (s : SlotActor) :
    Moves s (s.stageRemoval source).1 :=
  s.moves_pauseForReconfigure.trans (moves_setPending _ _)

theorem moves_stageModelProfile (modelProfile : Option ModelProfile) (s : SlotActor) :
    Moves s (s.stageModelProfile modelProfile).1 := by
  unfold stageModelProfile
  split_ifs
  · exact .refl
  · exact .refl
  · exact s.moves_setPending _

theorem moves_applyCommittedModelProfile (modelProfile : Option ModelProfile) (s : SlotActor) :
    Moves s (s.applyCommittedModelProfile modelProfile) := by
  unfold applyCommittedModelProfile
  extract_lets previousEffective changed
  have hchanged : Moves s changed := moves_quiet ⟨rfl, rfl, rfl⟩
  exact hchanged.trans (changed.moves_emitSystem (by decide) _)

theorem moves_applyCommittedReconfiguration (config : SlotConfig)
    (transportProfile : Option TransportProfile) (modelProfile : Option ModelProfile)
    (source : String) (reopened : Bool) (s : SlotActor) :
    Moves s (s.applyCommittedReconfiguration config transportProfile modelProfile source
      reopened) := by
  unfold applyCommittedReconfiguration
  extract_lets previous previousEffective previousTransport changed resumed
  have hchanged : Moves s changed := moves_quiet ⟨rfl, rfl, rfl⟩
  have hresumed : Moves changed resumed := moves_ite changed.moves_resumeCurrentConfig .refl
  exact (hchanged.trans hresumed).trans (resumed.moves_emitSystem (by decide) _)

theorem moves_commitStagedReconfiguration (s : SlotActor) :
    Moves s s.commitStagedReconfiguration.1 := by
  unfold commitStagedReconfiguration
  extract_lets cleared
  have hcleared : Moves s cleared := s.moves_setPending none
  split
  · exact .refl
  · split
    · exact (hcleared.trans cleared.moves_resumeCurrentConfig).trans
        (moves_emitSystem _ (by decide) _)
    · exact hcleared.trans (cleared.moves_applyCommittedReconfiguration _ _ _ _ _)
    · exact hcleared.trans (cleared.moves_emitSystem (by decide) _)
    · exact hcleared.trans (cleared.moves_applyCommittedModelProfile _)

theorem moves_rollbackStagedReconfiguration (s : SlotActor) :
    Moves s s.rollbackStagedReconfiguration.1 := by
  unfold rollbackStagedReconfiguration
  extract_lets cleared
  have hcleared : Moves s cleared := s.moves_setPending none
  have hresumed : Moves s cleared.resumeCurrentConfig.publishSnapshot :=
    (hcleared.trans cleared.moves_resumeCurrentConfig).trans (moves_publishSnapshot _)
  split
  · exact .refl
  · split
    · exact hcleared
    · split_ifs
      · exact hresumed
      · exact hcleared
    · exact hresumed
    · exact hcleared

end Changes

/-! ## Turns -/

section Turns

theorem moves_reply (key : String × Uuid) (result : SlotResult) (s : SlotActor) :
    Moves s (s.reply key result) := s.moves_record rfl

theorem moves_handlePhysical (key : String × Uuid) (request : SlotRequest)
    (fingerprint : WriteFingerprint) (s : SlotActor) :
    Moves s (s.handlePhysical key request fingerprint) := by
  unfold handlePhysical
  extract_lets asked executed cached
  have hasked : Moves s asked := s.moves_expireControl.trans (moves_ask _)
  split
  · exact hasked.trans (asked.moves_reply _ _)
  · split
    · exact hasked.trans (asked.moves_reply _ _)
    · split
      · exact hasked.trans (asked.moves_reply _ _)
      · exact hasked.trans (asked.moves_reply _ _)
      · have hexecuted : Moves asked executed.1 := asked.moves_execute _ _
        have hcached : Moves executed.1 cached :=
          moves_ite (executed.1.moves_cacheWriteResult _ _ _) .refl
        exact ((hasked.trans hexecuted).trans hcached).trans (cached.moves_reply _ _)

theorem moves_handleLogical (key : String × Uuid) (request : SlotRequest) (s : SlotActor) :
    Moves s (s.handleLogical key request) := by
  unfold handleLogical
  extract_lets fingerprint executed
  split
  · exact s.moves_reply _ _
  · have hexecuted : Moves s executed.1 := s.moves_execute _ _
    exact (hexecuted.trans (executed.1.moves_cacheResult _ _ _)).trans (moves_reply _ _ _)

theorem moves_handleRequest (requestId : Uuid) (request : SlotRequest) (s : SlotActor) :
    Moves s (s.handleRequest requestId request) := by
  unfold handleRequest
  extract_lets request key expired
  split
  · exact s.moves_reply _ _
  · apply s.moves_expirePendingRunStart.trans
    split
    · exact expired.moves_handlePhysical _ _ _
    · exact expired.moves_handleLogical _ _

theorem moves_adminReply {s : SlotActor} {done : SlotActor × Except SlotError Bool}
    (h : Moves s done.1) : Moves s (adminReply done).1 := h.trans (moves_record _ rfl)

theorem moves_handleCommand (command : SlotCommand) (s : SlotActor) :
    Moves s (s.handleCommand command).1 := by
  cases command with
  | request requestId request => exact s.moves_handleRequest _ _
  | macroCommand command => exact s.moves_handleMacroCommand _
  | disconnect actorId => exact s.moves_handleDisconnect _
  | stageReconfiguration config transportProfile modelProfile source resumeOnRollback =>
      exact moves_adminReply (s.moves_stageReconfiguration _ _ _ _ _)
  | stageModelProfile modelProfile => exact moves_adminReply (s.moves_stageModelProfile _)
  | stageRemoval source => exact moves_adminReply (s.moves_stageRemoval _)
  | commitStagedReconfiguration =>
      exact moves_adminReply s.moves_commitStagedReconfiguration
  | rollbackStagedReconfiguration =>
      exact moves_adminReply s.moves_rollbackStagedReconfiguration
  | shutdown => exact s.moves_prepareShutdown.trans (moves_record _ rfl)

theorem moves_drainQueuedPortEvents (bound : ℕ) (s : SlotActor) :
    Moves s (drainQueuedPortEvents bound s).1 := by
  induction bound generalizing s with
  | zero => exact .refl
  | succ bound ih =>
      unfold drainQueuedPortEvents
      extract_lets asked
      split
      · exact .refl
      · split_ifs
        · have hreceived := asked.moves_receivePortEvent
          split
          · rename_i t heq
            rw [heq] at hreceived
            exact (s.moves_ask.trans hreceived).trans (t.moves_handlePortClosed _)
          · rename_i t event heq
            rw [heq] at hreceived
            have hhandled : Moves s (t.handlePortEvent event) :=
              (s.moves_ask.trans hreceived).trans (t.moves_handlePortEvent event)
            extract_lets handled
            split_ifs
            · exact hhandled
            · exact hhandled.trans (ih _)
        · exact s.moves_ask

theorem moves_drainQueuedCommands (disconnected : Bool) (bound : ℕ)
    (queued : List SlotCommand) (s : SlotActor) :
    Moves s (drainQueuedCommands disconnected bound queued s).1 := by
  induction bound generalizing queued s with
  | zero => exact .refl
  | succ bound ih =>
      cases queued with
      | nil =>
          unfold drainQueuedCommands
          split_ifs
          · exact s.moves_requestTriggerStop _ _
          · exact .refl
      | cons command queued =>
          unfold drainQueuedCommands
          extract_lets handled
          have hhandled : Moves s handled.1 := s.moves_handleCommand command
          split_ifs
          · exact hhandled
          · exact hhandled
          · exact hhandled.trans (ih _ _)

theorem moves_fireTriggerTimer (s : SlotActor) : Moves s s.fireTriggerTimer := by
  unfold fireTriggerTimer
  extract_lets asked
  have hasked : Moves s asked := s.moves_expireControl.trans (moves_ask _)
  apply hasked.trans
  split
  · exact .refl
  · apply moves_ite asked.moves_finishStoppedTriggerIfIdle
    apply moves_ite (asked.moves_requestTriggerStop _ _)
    exact moves_ite asked.moves_beginTriggerWrite .refl

theorem moves_handleTriggerTimer (queued : List SlotCommand) (disconnected : Bool)
    (s : SlotActor) : Moves s (s.handleTriggerTimer queued disconnected).1 := by
  unfold handleTriggerTimer
  have hevents := s.moves_drainQueuedPortEvents portEventQueue
  split
  · rename_i t heq
    rw [heq] at hevents
    have hcommands := t.moves_drainQueuedCommands disconnected commandQueue queued
    split
    · rename_i u hequ
      rw [hequ] at hcommands
      exact (hevents.trans hcommands).trans u.moves_fireTriggerTimer
    · rename_i u hequ
      rw [hequ] at hcommands
      exact hevents.trans hcommands
    · rename_i u hequ
      rw [hequ] at hcommands
      exact hevents.trans hcommands
  · rename_i t drained _ heq
    rw [heq] at hevents
    exact hevents

theorem moves_silenceTarget (s : SlotActor) : Moves s s.silenceTarget := by
  unfold silenceTarget
  extract_lets asked
  apply s.moves_ask.trans
  exact moves_ite ((asked.moves_setPort _).trans (moves_publishSnapshot _)) .refl

theorem moves_maintain (s : SlotActor) : Moves s s.maintain := by
  unfold maintain
  extract_lets ready
  have hexpired : Moves s s.reapMacro.expireControl :=
    s.moves_reapMacro.trans (moves_expireControl _)
  have hready : Moves s ready :=
    (hexpired.trans (moves_expirePendingRunStart _)).trans
      ((moves_silenceTarget _).trans (moves_ask _))
  exact hready.trans (moves_ite ready.moves_tryOpen .refl)

theorem moves_takePortEvent (s : SlotActor) : Moves s s.takePortEvent := by
  unfold takePortEvent
  have hreceived := s.moves_receivePortEvent
  split_ifs
  · exact .refl
  · split
    · rename_i t event heq
      rw [heq] at hreceived
      exact hreceived.trans (t.moves_handlePortEvent event)
    · rename_i t heq
      rw [heq] at hreceived
      exact hreceived.trans (moves_ite (t.moves_handlePortClosed _) .refl)

theorem moves_takeTriggerTimer (queued : List SlotCommand) (disconnected : Bool)
    (s : SlotActor) : Moves s (s.takeTriggerTimer queued disconnected).1 := by
  unfold takeTriggerTimer
  extract_lets asked
  split
  · exact s.moves_ask
  · split_ifs
    · exact s.moves_ask.trans (asked.moves_handleTriggerTimer _ _)
    · exact s.moves_ask

/-- One turn of the loop. -/
theorem moves_turn (input : TurnInput) (s : SlotActor) : Moves s (s.turn input).1 := by
  cases input with
  | command command => exact s.moves_handleCommand command
  | portEvent => exact s.moves_takePortEvent
  | triggerWriteResult => exact s.moves_receiveTriggerWriteResult
  | journalAck index => exact .single (.acknowledge index)
  | triggerTimer queued disconnected => exact s.moves_takeTriggerTimer queued disconnected
  | maintenance => exact s.moves_maintain
  | macroProgress progress => exact s.moves_macroProgress progress
  | hangup => exact .refl

theorem moves_windDown (s : SlotActor) : Moves s s.windDown := by
  unfold windDown
  extract_lets stopped settled _
  have hstopped : Moves s stopped := s.moves_requestTriggerStop _ _
  have hsettled : Moves stopped settled :=
    stopped.moves_stopPort.trans (moves_settleTriggerWriteAfterPortStop _)
  exact ((hstopped.trans hsettled).trans (settled.moves_setPort _)).trans
    (moves_publishSnapshot _)

theorem moves_start (s : SlotActor) : Moves s s.start := by
  unfold start
  exact moves_ite ((s.moves_setPort _).trans (moves_publishSnapshot _)) .refl

/-- The state in front of every turn of a run, and behind its last one. -/
theorem moves_run (inputs : List TurnInput) (s : SlotActor) : Moves s (run inputs s) := by
  induction inputs generalizing s with
  | nil => exact .refl
  | cons input inputs ih =>
      have hturn := s.moves_turn input
      unfold run
      split
      · rename_i t heq
        rw [heq] at hturn
        exact hturn.trans (ih t)
      · rename_i t heq
        rw [heq] at hturn
        exact hturn.trans t.moves_windDown

end Turns

end SlotActor
end SerialPlatform
