import SerialPlatform.SlotCalm

/-!
# Routine functions of the actor

Losing the lease, the port or a party of an approval takes routine steps; each
function changes the mandate in one exact way.
-/

namespace SerialPlatform

namespace SlotActor

variable (hand : List RxSegment)

theorem mandate_of_calmly {hand hand' : List RxSegment} {s t : SlotActor}
    (h : Calmly (s.view hand) (t.view hand')) : t.mandate = s.mandate := h.mandate_eq

theorem mandate_requestTriggerStop {status : TriggerStatus}
    (hterminal : status.isTerminal = true) (hmatched : status ≠ .matched) (s : SlotActor) :
    (s.requestTriggerStop status none).mandate = s.mandate :=
  mandate_of_calmly (s.calmly_requestTriggerStop [] hterminal hmatched)

@[simp] theorem mandate_stopMacro (status : MacroStatus) (message : String)
    (s : SlotActor) : (s.stopMacro status message).mandate = s.mandate :=
  mandate_of_calmly (s.calmly_stopMacro [] status message)

/-- A function which emits an event or not leaves the mandate alone. -/
@[simp] theorem mandate_emit (kind : EventKind) (direction : Direction) (data : Bytes)
    (actor : Option Actor) (operationId : Option Uuid) (metadata : Metadata)
    (s : SlotActor) :
    (s.emit kind direction data actor operationId metadata).mandate = s.mandate :=
  s.mandate_emitInner

theorem calmly_emit {kind : EventKind} (hplain : kind.isPlain = true)
    (actor : Option Actor) (operationId : Option Uuid) (metadata : Metadata)
    (s : SlotActor) :
    Calmly (s.view hand) ((s.emit kind .none [] actor operationId metadata).view hand) :=
  s.calmly_emitInner hand hplain

theorem calmly_emitSystem (kind : EventKind) (hplain : kind.isPlain = true)
    (metadata : Metadata) (s : SlotActor) :
    Calmly (s.view hand) ((s.emitSystem kind metadata).view hand) :=
  s.calmly_emit hand hplain _ _ _

theorem calmly_emitControlGranted (lease : ControlLease) (s : SlotActor) :
    Calmly (s.view hand) ((s.emitControlGranted lease).view hand) :=
  s.calmly_emit hand rfl _ _ _

theorem calmly_emitRelease {kind : EventKind} (hplain : kind.isPlain = true)
    (outcome : ReleaseOutcome) (s : SlotActor) :
    Calmly (s.view hand) ((s.emitRelease outcome kind).view hand) := by
  have hreleased : Calmly (s.view hand)
      ((s.emit kind .none [] (some outcome.released.owner) none []).view hand) :=
    s.calmly_emit hand hplain _ _ _
  unfold emitRelease
  simp only
  cases outcome.promoted with
  | none => exact hreleased
  | some promoted => exact hreleased.trans (calmly_emitControlGranted hand _ _)

theorem routinely_setControl (control : ControlState) (s : SlotActor) :
    Routinely (s.view hand) ((s.setControl control).view hand) :=
  .single (.stand (v := s.view hand) control s.port.generation
    s.port.administrativelyPaused)

@[simp] theorem mandate_setControl (control : ControlState) (s : SlotActor) :
    (s.setControl control).mandate = s.mandate.withControl control := rfl

@[simp] theorem mandate_cacheResult (key : String × Uuid) (fingerprint : Fingerprint)
    (result : SlotResult) (s : SlotActor) :
    (s.cacheResult key fingerprint result).mandate = s.mandate :=
  congrArg View.mandate (view_cacheResult [] s key fingerprint result)

@[simp] theorem mandate_cacheRunStartTerminal (approval : PendingRunStartApproval)
    (result : CommandResult) (s : SlotActor) :
    (s.cacheRunStartTerminal approval result).mandate = s.mandate :=
  congrArg View.mandate (view_cacheRunStartTerminal [] s approval result)

/-! ## Runs -/

/-- The Run closes with one event. -/
theorem routinely_closeRun {kind : EventKind} {run closed : RunInfo} (s : SlotActor)
    (hrun : s.authority.activeRun = some run)
    (hkind : kind = .runEnded ∨ kind = .runAborted) (hid : closed.id = run.id)
    (actor : Option Actor) (metadata : Metadata) :
    Routinely (s.view hand)
      ((({ s with authority.activeRun := none, authority.runContext := none } :
        SlotActor).emitRunClosed kind closed actor metadata).view hand) := by
  obtain ⟨event, his, hevent, hnoted⟩ :=
    ({ s with authority.activeRun := none, authority.runContext := none } :
      SlotActor).view_emitEvent hand kind actor none (some closed.id) metadata
  refine .head (.closeRun (v := s.view hand) hrun ?_ ?_
    ⟨hevent.direction, hevent.data,
      ⟨hevent.next.seq, hevent.next.offsets, hevent.next.port, hevent.next.epoch⟩⟩)
    hnoted.calmly.routinely
  · rw [his.kind]
    exact hkind
  · rw [his.runId, hid]

theorem calmly_stopBoundTrigger (s : SlotActor) :
    Calmly (s.view hand)
      ((if s.triggerBoundToRun then s.requestTriggerStop .runLost none else s).view
        hand) := by
  split_ifs
  · exact s.calmly_requestTriggerStop hand rfl (by decide)
  · exact .refl

theorem routinely_abortRun (reason : String) (actor : Option Actor) (s : SlotActor) :
    Routinely (s.view hand) ((s.abortRun reason actor).view hand) := by
  unfold abortRun
  extract_lets stopped loosened
  have hloosened : Calmly (s.view hand) (loosened.view hand) :=
    (s.calmly_stopMacro hand _ _).trans (stopped.calmly_stopBoundTrigger hand)
  refine hloosened.routinely.trans ?_
  split
  · rename_i hnone
    exact .single (.clearContext (v := loosened.view hand) hnone)
  · rename_i run hrun
    exact loosened.routinely_closeRun hand hrun (.inr rfl) rfl _ _

theorem mandate_abortRun (reason : String) (actor : Option Actor) (s : SlotActor) :
    (s.abortRun reason actor).mandate =
      s.mandate.withoutRun := by
  unfold abortRun
  extract_lets stopped loosened
  have hloosened : loosened.mandate = s.mandate :=
    mandate_of_calmly ((s.calmly_stopMacro [] _ _).trans
      (stopped.calmly_stopBoundTrigger []))
  rw [← hloosened]
  split
  · rename_i hnone
    unfold Mandate.withoutRun
    rw [← hnone]
    rfl
  · exact mandate_emitInner _

/-! ## Approvals -/

theorem lookup_approvalMetadata (approval : PendingRunStartApproval)
    (rest : Metadata) :
    (approvalMetadata approval ++ rest).lookup "approval" = some (.approval approval) := by
  simp [approvalMetadata, List.lookup]

theorem approval_of_metadata {event : TimelineEvent} {approval : PendingRunStartApproval}
    {rest : Metadata} (hmetadata : event.metadata = approvalMetadata approval ++ rest) :
    event.approval = some approval := by
  rw [TimelineEvent.approval, hmetadata, lookup_approvalMetadata]

/-- The pending approval ends with one event. -/
theorem routinely_closeApproval {kind : EventKind} {pending : PendingRunStartState}
    {s t : SlotActor} (hpending : s.authority.pendingRunStart = some pending)
    (hview : t.view hand = { s.view hand with pendingRunStart := none })
    (hkind : kind.endsApproval) (actor : Option Actor) (runId : Option Uuid)
    (rest : Metadata) :
    Routinely (s.view hand)
      ((t.emitInner kind .none [] actor none runId
        (approvalMetadata pending.approval ++ rest)).view hand) := by
  obtain ⟨event, his, hevent, hnoted⟩ := t.view_emitEvent hand kind actor none runId
    (approvalMetadata pending.approval ++ rest)
  rw [hview] at hevent hnoted
  refine .head (.closeApproval (v := s.view hand) hpending ?_
    (approval_of_metadata his.metadata)
    ⟨hevent.direction, hevent.data,
      ⟨hevent.next.seq, hevent.next.offsets, hevent.next.port, hevent.next.epoch⟩⟩)
    hnoted.calmly.routinely
  rw [his.kind]
  exact hkind

theorem routinely_cancelPendingRunStart (reason : String) (s : SlotActor) :
    Routinely (s.view hand) ((s.cancelPendingRunStart reason).view hand) := by
  unfold cancelPendingRunStart
  split
  · exact .refl
  · rename_i pending hpending
    exact routinely_closeApproval hand hpending (view_cacheRunStartTerminal hand _ _ _)
      (.inr (.inr rfl)) _ _ _

@[simp] theorem mandate_cancelPendingRunStart (reason : String) (s : SlotActor) :
    (s.cancelPendingRunStart reason).mandate =
      s.mandate.withoutPending := by
  unfold cancelPendingRunStart
  split
  · rename_i hnone
    simp only [mandate, View.mandate, view, hnone, Mandate.withoutPending]
  · simp only
    rw [mandate_emitInner, mandate_cacheRunStartTerminal]
    rfl

theorem routinely_expirePendingRunStart (s : SlotActor) :
    Routinely (s.view hand) (s.expirePendingRunStart.view hand) := by
  unfold expirePendingRunStart
  extract_lets asked
  split
  · exact .refl
  · rename_i pending hpending
    split_ifs
    · exact .refl
    · unfold emitRunStartTerminal
      exact routinely_closeApproval (s := asked) hand hpending
        (view_cacheRunStartTerminal hand _ _ _) (.inr (.inl rfl)) _ _ _

/-- An approval which is still pending after the check was checked in time. -/
theorem mandate_expirePendingRunStart (s : SlotActor) :
    s.expirePendingRunStart.mandate = s.mandate.withoutPending ∨
      (s.expirePendingRunStart = s.ask ∧
        ∀ pending, s.authority.pendingRunStart = some pending →
          s.ask.now < pending.deadline) := by
  unfold expirePendingRunStart
  extract_lets asked
  have hasked : asked.authority.pendingRunStart = s.authority.pendingRunStart := rfl
  split
  · rename_i hnone
    exact .inr ⟨rfl, fun pending hpending => by
      rw [← hasked, hnone] at hpending
      cases hpending⟩
  · rename_i pending hpending
    split_ifs with htime
    · refine .inr ⟨rfl, fun other hother => ?_⟩
      rw [← hasked, hpending] at hother
      obtain rfl := Option.some.inj hother
      exact htime
    · refine .inl ?_
      unfold emitRunStartTerminal
      rw [mandate_emitInner, mandate_cacheRunStartTerminal]
      rfl

/-! ## The lease -/

theorem routinely_dropLease {kind : EventKind} (hplain : kind.isPlain = true)
    (reason : String) (released : Option ReleaseOutcome) (s : SlotActor) :
    Routinely (s.view hand) ((s.dropLease reason kind released).view hand) := by
  cases released with
  | none => exact .refl
  | some released =>
      exact (s.routinely_abortRun hand _ _).trans
        (calmly_emitRelease hand hplain released _).routinely

theorem mandate_dropLease {kind : EventKind} (hplain : kind.isPlain = true)
    (reason : String) (released : Option ReleaseOutcome) (s : SlotActor) :
    (s.dropLease reason kind released).mandate =
      if released.isSome then s.mandate.withoutRun
      else s.mandate := by
  cases released with
  | none => rfl
  | some released =>
      exact (mandate_of_calmly (calmly_emitRelease [] hplain released _)).trans
        (s.mandate_abortRun _ _)

theorem routinely_expireControl (s : SlotActor) :
    Routinely (s.view hand) (s.expireControl.view hand) := by
  unfold expireControl
  extract_lets asked
  split
  · exact .refl
  · rename_i control released _
    extract_lets held cancelled loosened aborted
    have hheld : Routinely (s.view hand) (held.view hand) :=
      asked.routinely_setControl hand control
    have hcancelled : Routinely (held.view hand) (cancelled.view hand) :=
      held.routinely_cancelPendingRunStart hand _
    have hloosened : Calmly (cancelled.view hand) (loosened.view hand) :=
      cancelled.calmly_requestTriggerStop hand rfl (by decide)
    have haborted : Routinely (loosened.view hand) (aborted.view hand) :=
      loosened.routinely_abortRun hand _ _
    have hreleased : Calmly (aborted.view hand)
        ((aborted.emitRelease released .controlExpired).view hand) :=
      aborted.calmly_emitRelease hand rfl released
    exact (((hheld.trans hcancelled).trans hloosened.routinely).trans haborted).trans
      hreleased.routinely

/-- An expired lease takes everything with it. -/
theorem mandate_expireControl (s : SlotActor) :
    s.expireControl = s.ask ∨
      s.expireControl.mandate =
        s.mandate.withdrawn { s.authority.control with current := none } := by
  unfold expireControl
  extract_lets asked
  split
  · exact .inl rfl
  · rename_i control released hexpired
    refine .inr ?_
    have hcontrol : control = { s.authority.control with current := none } := by
      have hasked : asked.authority.control = s.authority.control := rfl
      rw [hasked] at hexpired
      unfold ControlState.expire at hexpired
      split at hexpired
      · cases hexpired
      · split_ifs at hexpired
        · cases hexpired
        · exact (Prod.ext_iff.mp hexpired).1.symm
    rw [mandate_of_calmly (calmly_emitRelease [] rfl released _), mandate_abortRun,
      mandate_requestTriggerStop rfl (by decide), mandate_cancelPendingRunStart,
      mandate_setControl, hcontrol]
    rfl

theorem routinely_loseControl (pendingReason runReason : String) (s : SlotActor) :
    Routinely (s.view hand) ((s.loseControl pendingReason runReason).view hand) := by
  unfold loseControl
  extract_lets asked changed held cancelled
  have hcancelled : Routinely (s.view hand) (cancelled.view hand) :=
    (asked.routinely_setControl hand _).trans
      (held.routinely_cancelPendingRunStart hand _)
  refine hcancelled.trans ?_
  split
  · rename_i released _
    exact (cancelled.routinely_abortRun hand _ _).trans
      (calmly_emitRelease hand rfl released _).routinely
  · exact cancelled.routinely_abortRun hand _ _

theorem changeGeneration_control (control : ControlState) (generation : ℕ) :
    (control.changeGeneration generation).1 =
      { control with generation := generation, current := none } := by
  unfold ControlState.changeGeneration
  split
  · rename_i hnone
    rw [← hnone]
  · rfl

theorem mandate_loseControl (pendingReason runReason : String) (s : SlotActor) :
    (s.loseControl pendingReason runReason).mandate =
      s.mandate.withdrawn
        { s.authority.control with generation := s.port.generation, current := none } := by
  unfold loseControl
  extract_lets asked changed held cancelled
  have hcontrol : changed.1 =
      { s.authority.control with generation := s.port.generation, current := none } :=
    changeGeneration_control _ _
  have hcancelled : cancelled.mandate =
      (s.mandate.withControl changed.1).withoutPending :=
    held.mandate_cancelPendingRunStart _
  rw [hcontrol] at hcancelled
  split
  · rename_i released _
    rw [mandate_of_calmly (calmly_emitRelease [] rfl released _), mandate_abortRun,
      hcancelled]
    rfl
  · rw [mandate_abortRun, hcancelled]
    rfl

/-! ## Disconnects -/

theorem routinely_handleDisconnect (actorId : String) (s : SlotActor) :
    Routinely (s.view hand) ((s.handleDisconnect actorId).view hand) := by
  unfold handleDisconnect
  extract_lets owned loosened asked disconnected held cancelled
  have hloosened : Routinely (s.view hand) (loosened.view hand) := by
    simp only [loosened]
    split_ifs
    · exact (s.calmly_requestTriggerStop hand rfl (by decide)).routinely
    · exact .refl
  have hcancelled : Routinely (held.view hand) (cancelled.view hand) := by
    simp only [cancelled]
    unfold cancelPendingForDisconnect
    split
    · exact .refl
    · split_ifs
      · exact held.routinely_cancelPendingRunStart hand _
      · exact .refl
  exact ((hloosened.trans (asked.routinely_setControl hand _)).trans hcancelled).trans
    (cancelled.routinely_dropLease hand rfl _ _)

/-! ## Stopping the port -/

/-- The port is given up, and what its workers left is drained. -/
theorem stopPort_drains (s : SlotActor) :
    ∃ v, Calmly (s.view hand) v ∧ Calmly v.stopped (s.stopPort.view hand) := by
  unfold stopPort
  extract_lets stopped readerTail events _ closed drained counted
  refine ⟨stopped.view hand, s.calmly_stopMacro hand _ _, ?_⟩
  have htail : readerTail = ((stopped.port.port.map PortWorker.tail).getD {}) := by
    simp only [readerTail]
    cases stopped.port.port <;> rfl
  have hclosed : (stopped.view hand).stopped =
      closed.view (events.flatMap PortEvent.segments ++ (readerTail.segments ++ hand)) := by
    rw [htail]
    simp only [View.stopped, List.append_assoc]
    rfl
  rw [hclosed]
  refine (closed.calmly_drainPortEvents (readerTail.segments ++ hand) events).trans ?_
  unfold ReaderTail.segments
  rw [List.append_assoc]
  refine (drained.calmly_handleRxOverflow _ readerTail.droppedBytes).trans ?_
  split_ifs
  · exact .refl
  · exact counted.calmly_handleRxData hand _

theorem routinely_stopPort (s : SlotActor) :
    Routinely (s.view hand) (s.stopPort.view hand) := by
  obtain ⟨v, hbefore, hafter⟩ := s.stopPort_drains hand
  exact hbefore.routinely.trans (.head .stopPort hafter.routinely)

theorem mandate_stopPort (s : SlotActor) :
    s.stopPort.mandate = s.mandate.offline := by
  obtain ⟨v, hbefore, hafter⟩ := s.stopPort_drains []
  have hv : v.mandate = s.mandate := hbefore.mandate_eq
  have hstopped : s.stopPort.mandate = v.stopped.mandate := hafter.mandate_eq
  rw [hstopped, ← hv]
  rfl

theorem routinely_stopPortAndTrigger {status : TriggerStatus}
    (hterminal : status.isTerminal = true) (hmatched : status ≠ .matched) (s : SlotActor) :
    Routinely (s.view hand) ((s.stopPortAndTrigger status).view hand) := by
  unfold stopPortAndTrigger
  extract_lets marked
  have hmarked : Calmly (s.view hand) (marked.view hand) :=
    s.calmly_markStopping hand hterminal hmatched
  have hsettled := marked.stopPort.calmly_settleTriggerWriteAfterPortStop hand
  have hfinished :=
    marked.stopPort.settleTriggerWriteAfterPortStop.calmly_finishStoppedTriggerIfIdle hand
  exact ((hmarked.routinely.trans (marked.routinely_stopPort hand)).trans
    hsettled.routinely).trans hfinished.routinely

theorem mandate_stopPortAndTrigger {status : TriggerStatus}
    (hterminal : status.isTerminal = true) (hmatched : status ≠ .matched) (s : SlotActor) :
    (s.stopPortAndTrigger status).mandate = s.mandate.offline := by
  unfold stopPortAndTrigger
  extract_lets marked
  have hafter := mandate_of_calmly
    ((calmly_settleTriggerWriteAfterPortStop [] marked.stopPort).trans
      (calmly_finishStoppedTriggerIfIdle [] _))
  rw [hafter, mandate_stopPort,
    mandate_of_calmly (s.calmly_markStopping [] hterminal hmatched)]

theorem view_setPort (port : PortState) (s : SlotActor)
    (hport : port.port = s.port.port) (hevents : port.portEvents = s.port.portEvents) :
    (s.setPort port).view hand =
      { s.view hand with
        standing.generation := port.generation
        standing.administrativelyPaused := port.administrativelyPaused } := by
  simp only [setPort, view, standing, hport, hevents]

theorem routinely_handlePortClosed (reason : String) (s : SlotActor) :
    Routinely (s.view hand) ((s.handlePortClosed reason).view hand) := by
  unfold handlePortClosed
  extract_lets stopped _ backoff lost
  have hstopped : Routinely (s.view hand) (stopped.view hand) :=
    s.routinely_stopPortAndTrigger hand rfl (by decide)
  have hlost : Routinely (stopped.view hand) (lost.view hand) :=
    backoff.routinely_loseControl hand _ _
  have hclosed := lost.scheduleRetry.publishSnapshot.calmly_emitSystem hand
    .serialClosed rfl [("reason", .str reason)]
  exact (hstopped.trans hlost).trans hclosed.routinely

/-- The mandate after the port closed. -/
def closedMandate (s : SlotActor) : Mandate :=
  s.mandate.offline.withdrawn
    { s.authority.control with generation := s.port.generation, current := none }

theorem mandate_handlePortClosed (reason : String) (s : SlotActor) :
    (s.handlePortClosed reason).mandate = s.closedMandate := by
  unfold handlePortClosed
  extract_lets stopped _ backoff lost
  have hstopped : stopped.mandate = s.mandate.offline :=
    s.mandate_stopPortAndTrigger rfl (by decide)
  have hbackoff : backoff.mandate = stopped.mandate := rfl
  have hlost := backoff.mandate_loseControl "serial_port_disconnected"
    "serial port disconnected"
  have hcontrol : backoff.authority.control = s.authority.control :=
    congrArg (fun m => m.standing.control) hstopped
  have hgeneration : backoff.port.generation = s.port.generation :=
    congrArg (fun m => m.standing.generation) hstopped
  rw [hbackoff, hstopped, hcontrol, hgeneration] at hlost
  have hclosed := mandate_of_calmly (lost.scheduleRetry.publishSnapshot.calmly_emitSystem []
    .serialClosed rfl [("reason", .str reason)])
  have hretry : lost.scheduleRetry.publishSnapshot.mandate = lost.mandate := rfl
  exact (hclosed.trans hretry).trans hlost

/-! ## Port events -/

theorem routinely_handlePortEvent (event : PortEvent) (s : SlotActor) :
    Routinely (s.view (event.segments ++ hand)) ((s.handlePortEvent event).view hand) := by
  cases event with
  | rx data => exact (s.calmly_handleRxData hand data).routinely
  | overflow count => exact (s.calmly_handleRxOverflow hand count).routinely
  | closed reason count =>
      exact (s.calmly_handleRxOverflow hand count).routinely.trans
        (routinely_handlePortClosed hand reason _)
  | readerBarrier id => exact .refl

/-- An event of the port closes it, or leaves the mandate alone. -/
theorem mandate_handlePortEvent (event : PortEvent) (s : SlotActor) :
    (s.handlePortEvent event).mandate = s.mandate ∨
      (s.handlePortEvent event).mandate = s.closedMandate := by
  cases event with
  | rx data => exact .inl (mandate_of_calmly (s.calmly_handleRxData [] data))
  | overflow count => exact .inl (mandate_of_calmly (s.calmly_handleRxOverflow [] count))
  | closed reason count =>
      refine .inr ?_
      have hcounted : (s.handleRxOverflow count).mandate = s.mandate :=
        mandate_of_calmly (s.calmly_handleRxOverflow [] count)
      have hclosed := mandate_handlePortClosed reason (s.handleRxOverflow count)
      unfold closedMandate at hclosed ⊢
      have hcontrol : (s.handleRxOverflow count).authority.control = s.authority.control :=
        congrArg (fun m => m.standing.control) hcounted
      have hgeneration : (s.handleRxOverflow count).port.generation = s.port.generation :=
        congrArg (fun m => m.standing.generation) hcounted
      rw [hcounted, hcontrol, hgeneration] at hclosed
      exact hclosed
  | readerBarrier id => exact .inl rfl

end SlotActor
end SerialPlatform
