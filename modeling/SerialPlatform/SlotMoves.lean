import SerialPlatform.SlotTurn

/-!
# The moves of a port actor

Whatever the actor does, its timeline only moves when an event is emitted or an
acknowledgement comes in, and everything else which it does to the world is one more
entry of the trace.
-/

namespace SerialPlatform
namespace SlotActor

/-- The timeline, the trace and the epoch are the same; lost bytes may be counted. -/
structure SameLog (s t : SlotActor) : Prop where
  timeline : t.timeline = { s.timeline with rxOffset := t.timeline.rxOffset }
  trace : t.trace = s.trace
  daemonEpoch : t.daemonEpoch = s.daemonEpoch

end SlotActor

def Effect.isEvent : Effect → Bool
  | .event _ => true
  | _ => false

namespace SlotActor

inductive Move : SlotActor → SlotActor → Prop
  | emit {s : SlotActor} (kind : EventKind) (direction : Direction) (data : Bytes)
      (actor : Option Actor) (operationId runId : Option Uuid) (metadata : Metadata)
      (hkind : kind ≠ .loggingDegraded) :
      Move s (s.emitInner kind direction data actor operationId runId metadata)
  | acknowledge {s : SlotActor} (index : ℕ) : Move s (s.takeJournalAck index)
  | act {s : SlotActor} (effect : Effect) (heffect : effect.isEvent = false) :
      Move s (s.record effect)
  | quiet {s t : SlotActor} (hsame : SameLog s t) : Move s t

abbrev Moves : SlotActor → SlotActor → Prop := Relation.ReflTransGen Move

theorem Moves.trans {s t u : SlotActor} (hst : Moves s t) (htu : Moves t u) : Moves s u :=
  Relation.ReflTransGen.trans hst htu

theorem moves_quiet {s t : SlotActor} (hsame : SameLog s t) : Moves s t :=
  .single (.quiet hsame)

theorem moves_record (s : SlotActor) {effect : Effect} (heffect : effect.isEvent = false) :
    Moves s (s.record effect) :=
  .single (.act effect heffect)

theorem moves_ite {s t u : SlotActor} {c : Prop} [Decidable c] (ht : Moves s t)
    (hu : Moves s u) : Moves s (if c then t else u) := by
  split
  · exact ht
  · exact hu

section Emission

variable (s : SlotActor)

theorem moves_ask : Moves s s.ask := moves_quiet ⟨rfl, rfl, rfl⟩

theorem moves_publishSnapshot : Moves s s.publishSnapshot := moves_quiet ⟨rfl, rfl, rfl⟩

theorem moves_emitInner {kind : EventKind} (hkind : kind ≠ .loggingDegraded)
    (direction : Direction) (data : Bytes) (actor : Option Actor)
    (operationId runId : Option Uuid) (metadata : Metadata) :
    Moves s (s.emitInner kind direction data actor operationId runId metadata) :=
  .single (.emit kind direction data actor operationId runId metadata hkind)

theorem moves_emit {kind : EventKind} (hkind : kind ≠ .loggingDegraded)
    (direction : Direction) (data : Bytes) (actor : Option Actor)
    (operationId : Option Uuid) (metadata : Metadata) :
    Moves s (s.emit kind direction data actor operationId metadata) :=
  s.moves_emitInner hkind direction data actor operationId _ metadata

theorem moves_emitSystem {kind : EventKind} (hkind : kind ≠ .loggingDegraded)
    (metadata : Metadata) : Moves s (s.emitSystem kind metadata) :=
  s.moves_emit hkind _ _ _ _ _

end Emission

/-! ## Triggers -/

section Triggers

theorem moves_setTrigger (s : SlotActor) (trigger : ActiveTrigger) :
    Moves s (s.setTrigger trigger) := moves_quiet ⟨rfl, rfl, rfl⟩

theorem moves_markTriggerStopping (status : TriggerStatus) (matchedPattern : Option Bytes)
    (s : SlotActor) : Moves s (s.markTriggerStopping status matchedPattern) := by
  unfold markTriggerStopping
  split
  · exact .refl
  · exact (s.moves_setTrigger _).trans (moves_record _ rfl)

theorem triggerTerminalKind_ne (status : TriggerStatus) :
    triggerTerminalKind status ≠ .loggingDegraded := by
  cases status <;> decide

theorem moves_retireTrigger (info : TriggerInfo) (s : SlotActor) :
    Moves s (s.retireTrigger info) := by
  unfold retireTrigger
  exact moves_quiet ⟨rfl, rfl, rfl⟩

theorem moves_finishTrigger (trigger : ActiveTrigger) (status : TriggerStatus)
    (matchedPattern : Option Bytes) (s : SlotActor) :
    Moves s (s.finishTrigger trigger status matchedPattern) := by
  unfold finishTrigger
  extract_lets _ closed info emitted
  have hclosed : Moves s closed := moves_quiet ⟨rfl, rfl, rfl⟩
  have hemitted : Moves closed emitted :=
    closed.moves_emitInner (triggerTerminalKind_ne status) _ _ _ _ _ _
  exact ((hclosed.trans hemitted).trans (emitted.moves_retireTrigger info)).trans
    (moves_publishSnapshot _)

theorem moves_finishStoppedTriggerIfIdle (s : SlotActor) :
    Moves s s.finishStoppedTriggerIfIdle := by
  unfold finishStoppedTriggerIfIdle
  split
  · exact .refl
  · split
    · exact s.moves_finishTrigger _ _ _
    · exact .refl

theorem moves_requestTriggerStop (status : TriggerStatus) (matchedPattern : Option Bytes)
    (s : SlotActor) : Moves s (s.requestTriggerStop status matchedPattern) := by
  unfold requestTriggerStop
  extract_lets marked
  have hmarked : Moves s marked := s.moves_markTriggerStopping status matchedPattern
  exact hmarked.trans
    (moves_ite marked.moves_publishSnapshot marked.moves_finishStoppedTriggerIfIdle)

theorem moves_enqueueTriggerWrite (trigger : ActiveTrigger) (kind : TriggerWriteKind)
    (data : Bytes) (pacing : WritePacing) (s : SlotActor) :
    Moves s (s.enqueueTriggerWrite trigger kind data pacing) := by
  unfold enqueueTriggerWrite
  extract_lets asked
  apply s.moves_ask.trans
  apply moves_ite (asked.moves_requestTriggerStop _ _)
  split
  · exact asked.moves_requestTriggerStop _ _
  · split
    · exact asked.moves_requestTriggerStop _ _
    · exact asked.moves_requestTriggerStop _ _
    · exact (asked.moves_record rfl).trans (moves_quiet ⟨rfl, rfl, rfl⟩)

theorem moves_authorizeTriggerWrite (trigger : ActiveTrigger) (kind : TriggerWriteKind)
    (data : Bytes) (s : SlotActor) : Moves s (s.authorizeTriggerWrite trigger kind data) := by
  unfold authorizeTriggerWrite
  extract_lets pacing asked
  split
  · exact s.moves_requestTriggerStop _ _
  · apply s.moves_ask.trans
    split
    · exact asked.moves_requestTriggerStop _ _
    · split
      · exact asked.moves_requestTriggerStop _ _
      · exact asked.moves_enqueueTriggerWrite _ _ _ _

theorem moves_checkTriggerWrite (trigger : ActiveTrigger) (s : SlotActor) :
    Moves s (s.checkTriggerWrite trigger) := by
  unfold checkTriggerWrite
  extract_lets asked
  apply moves_ite (s.moves_requestTriggerStop _ _)
  apply moves_ite (s.moves_requestTriggerStop _ _)
  apply s.moves_ask.trans
  split
  · exact asked.moves_requestTriggerStop _ _
  · split
    · exact asked.moves_requestTriggerStop _ _
    · split
      · exact asked.moves_requestTriggerStop _ _
      · exact .refl
      · exact asked.moves_setTrigger _
      · exact asked.moves_authorizeTriggerWrite _ _ _

theorem moves_beginTriggerWrite (s : SlotActor) : Moves s s.beginTriggerWrite := by
  unfold beginTriggerWrite
  extract_lets asked again
  apply s.moves_ask.trans
  split
  · exact .refl
  · apply moves_ite (asked.moves_requestTriggerStop _ _)
    apply asked.moves_ask.trans
    exact moves_ite .refl (again.moves_checkTriggerWrite _)

theorem moves_emitTriggerTx (trigger : ActiveTrigger) (result : TriggerWriteResult)
    (written : ℕ) (s : SlotActor) : Moves s (s.emitTriggerTx trigger result written) := by
  unfold emitTriggerTx
  extract_lets eventSeq emitted
  apply moves_ite
  · exact (s.moves_emitInner (by decide) _ _ _ _ _ _).trans (emitted.moves_setTrigger _)
  · exact .refl

theorem moves_confirmTriggerWrite (kind : TriggerWriteKind) (s : SlotActor) :
    Moves s (s.confirmTriggerWrite kind) := by
  unfold confirmTriggerWrite
  extract_lets asked
  apply s.moves_ask.trans
  split
  · exact .refl
  · extract_lets confirmed stepped
    have hstepped : Moves asked stepped := asked.moves_setTrigger confirmed.1
    apply hstepped.trans
    split
    · exact stepped.moves_markTriggerStopping _ _
    · exact .refl

theorem moves_emitGap (runId : Option Uuid) (droppedBytes : ℕ) (metadata : Metadata)
    (s : SlotActor) : Moves s (s.emitGap runId droppedBytes metadata) := by
  unfold emitGap
  have hcounted : Moves s { s with
      timeline.rxOffset := satAdd u64Max s.timeline.rxOffset droppedBytes } :=
    moves_quiet ⟨rfl, rfl, rfl⟩
  exact hcounted.trans
    (moves_emitInner _ (by decide : EventKind.gap ≠ .loggingDegraded) _ _ _ _ _ _)

theorem moves_emitBufferedEvent (runId : Option Uuid) (s : SlotActor) (event : PortEvent) :
    Moves s (emitBufferedEvent runId s event) := by
  cases event with
  | rx data => exact s.moves_emitInner (by decide) _ _ _ _ _ _
  | overflow droppedBytes => exact s.moves_emitGap _ _ _
  | closed reason droppedBytes => exact .refl
  | readerBarrier id => exact .refl

/-- A list of moves. -/
theorem moves_foldl {α : Type} {f : SlotActor → α → SlotActor} (hf : ∀ s a, Moves s (f s a))
    (items : List α) (s : SlotActor) : Moves s (items.foldl f s) := by
  induction items generalizing s with
  | nil => exact .refl
  | cons item items ih => exact (hf s item).trans (ih (f s item))

theorem moves_flushBufferedRx (s : SlotActor) : Moves s s.flushBufferedRx := by
  unfold flushBufferedRx
  split
  · exact .refl
  · rename_i trigger _
    extract_lets runId droppedBytes cleared flushed
    have hflushed : Moves cleared flushed :=
      moves_foldl (moves_emitBufferedEvent runId) trigger.bufferedRx.events cleared
    apply ((s.moves_setTrigger _).trans hflushed).trans
    exact moves_ite (flushed.moves_emitGap _ _ _) .refl

theorem moves_acceptTriggerWriteResult (trigger : ActiveTrigger) (result : TriggerWriteResult)
    (s : SlotActor) : Moves s (s.acceptTriggerWriteResult trigger result) := by
  unfold acceptTriggerWriteResult
  extract_lets idle settled report sent confirmed
  have hsettled : Moves s settled := (s.moves_setTrigger idle).trans (moves_record _ rfl)
  have hsent : Moves settled sent := settled.moves_emitTriggerTx _ _ _
  have hconfirmed : Moves sent confirmed :=
    moves_ite (sent.moves_confirmTriggerWrite _) (sent.moves_markTriggerStopping _ _)
  apply ((hsettled.trans hsent).trans hconfirmed).trans
  apply (confirmed.moves_flushBufferedRx).trans
  exact (moves_finishStoppedTriggerIfIdle _).trans (moves_publishSnapshot _)

theorem moves_receiveTriggerWriteResult (s : SlotActor) :
    Moves s s.receiveTriggerWriteResult := by
  unfold receiveTriggerWriteResult
  split
  · exact .refl
  · rename_i result rest _
    have hpopped : Moves s { s with trigger.writeResults := rest } :=
      moves_quiet ⟨rfl, rfl, rfl⟩
    apply hpopped.trans
    unfold handleTriggerWriteResult
    split
    · exact .refl
    · exact moves_ite .refl (moves_acceptTriggerWriteResult _ _ _)

theorem moves_drainTriggerWriteResults (count : ℕ) (s : SlotActor) :
    Moves s (drainTriggerWriteResults count s) := by
  induction count generalizing s with
  | zero => exact .refl
  | succ count ih =>
      unfold drainTriggerWriteResults
      apply s.moves_ask.trans
      exact moves_ite ((moves_receiveTriggerWriteResult _).trans (ih _)) .refl

theorem moves_settleTriggerWriteAfterPortStop (s : SlotActor) :
    Moves s s.settleTriggerWriteAfterPortStop := by
  unfold settleTriggerWriteAfterPortStop
  exact (moves_ite s.moves_receiveTriggerWriteResult .refl).trans
    (moves_drainTriggerWriteResults _ _)

theorem moves_observeTriggerRx (data : Bytes) (s : SlotActor) :
    Moves s (s.observeTriggerRx data).1 := by
  unfold observeTriggerRx
  extract_lets asked
  apply s.moves_ask.trans
  split
  · exact .refl
  · exact asked.moves_setTrigger _

end Triggers

/-! ## Control, Runs and approvals -/

section Runs

theorem moves_cacheResult (key : String × Uuid) (fingerprint : Fingerprint)
    (result : SlotResult) (s : SlotActor) : Moves s (s.cacheResult key fingerprint result) := by
  unfold cacheResult
  exact moves_ite .refl (moves_quiet ⟨rfl, rfl, rfl⟩)

theorem moves_cacheWriteResult (requestId : Uuid) (fingerprint : WriteFingerprint)
    (result : SlotResult) (s : SlotActor) :
    Moves s (s.cacheWriteResult requestId fingerprint result) := by
  unfold cacheWriteResult
  exact moves_ite .refl (moves_quiet ⟨rfl, rfl, rfl⟩)

theorem moves_stopMacro (status : MacroStatus) (message : String) (s : SlotActor) :
    Moves s (s.stopMacro status message) := by
  unfold stopMacro
  split
  · exact .refl
  · exact moves_ite .refl (moves_quiet ⟨rfl, rfl, rfl⟩)

theorem moves_installRun (actor : Actor) (label : String) (metadata : JsonMap)
    (eventsBeforeStart : ℕ) (s : SlotActor) :
    Moves s (s.installRun actor label metadata eventsBeforeStart).1 :=
  moves_quiet ⟨rfl, rfl, rfl⟩

theorem moves_setControl (s : SlotActor) (control : ControlState) :
    Moves s (s.setControl control) := moves_quiet ⟨rfl, rfl, rfl⟩

theorem moves_closeRun (s : SlotActor) :
    Moves s { s with authority.activeRun := none, authority.runContext := none } :=
  moves_quiet ⟨rfl, rfl, rfl⟩

theorem moves_closeApproval (s : SlotActor) :
    Moves s { s with authority.pendingRunStart := none } := moves_quiet ⟨rfl, rfl, rfl⟩

theorem moves_abortRun (reason : String) (actor : Option Actor) (s : SlotActor) :
    Moves s (s.abortRun reason actor) := by
  unfold abortRun
  extract_lets stopped loosened
  have hloosened : Moves s loosened := (s.moves_stopMacro _ _).trans
    (moves_ite (stopped.moves_requestTriggerStop _ _) .refl)
  apply hloosened.trans
  split
  · exact moves_quiet ⟨rfl, rfl, rfl⟩
  · exact loosened.moves_closeRun.trans
      (moves_emitInner _ (by decide : EventKind.runAborted ≠ .loggingDegraded) _ _ _ _ _ _)

theorem moves_cacheRunStartTerminal (approval : PendingRunStartApproval)
    (result : CommandResult) (s : SlotActor) :
    Moves s (s.cacheRunStartTerminal approval result) := by
  unfold cacheRunStartTerminal
  extract_lets key fingerprint
  split
  · exact moves_ite (moves_quiet ⟨rfl, rfl, rfl⟩) .refl
  · exact s.moves_cacheResult _ _ _

/-- The pending approval ends. -/
theorem moves_endApproval {kind : EventKind} (hkind : kind ≠ .loggingDegraded)
    (approval : PendingRunStartApproval) (result : CommandResult) (actor : Option Actor)
    (runId : Option Uuid) (metadata : Metadata) (s : SlotActor) :
    Moves s
      ((({ s with authority.pendingRunStart := none } : SlotActor).cacheRunStartTerminal approval
        result).emitInner kind .none [] actor none runId metadata) :=
  (s.moves_closeApproval.trans (moves_cacheRunStartTerminal _ _ _)).trans
    (moves_emitInner _ hkind _ _ _ _ _ _)

theorem moves_expirePendingRunStart (s : SlotActor) : Moves s s.expirePendingRunStart := by
  unfold expirePendingRunStart
  extract_lets asked
  apply s.moves_ask.trans
  split
  · exact .refl
  · exact moves_ite .refl (moves_endApproval (by decide) _ _ _ _ _ asked)

theorem moves_cancelPendingRunStart (reason : String) (s : SlotActor) :
    Moves s (s.cancelPendingRunStart reason) := by
  unfold cancelPendingRunStart
  split
  · exact .refl
  · exact moves_endApproval (by decide) _ _ _ _ _ s

theorem moves_cancelPendingForDisconnect (actorId : String) (s : SlotActor) :
    Moves s (s.cancelPendingForDisconnect actorId) := by
  unfold cancelPendingForDisconnect
  split
  · exact .refl
  · exact moves_ite (s.moves_cancelPendingRunStart _) .refl

theorem moves_emitControlGranted (lease : ControlLease) (s : SlotActor) :
    Moves s (s.emitControlGranted lease) := s.moves_emit (by decide) _ _ _ _ _

theorem moves_emitRelease {kind : EventKind} (hkind : kind ≠ .loggingDegraded)
    (outcome : ReleaseOutcome) (s : SlotActor) : Moves s (s.emitRelease outcome kind) := by
  unfold emitRelease
  extract_lets released
  have hreleased : Moves s released := s.moves_emit hkind _ _ _ _ _
  apply hreleased.trans
  split
  · exact released.moves_emitControlGranted _
  · exact .refl

theorem moves_dropLease (reason : String) {kind : EventKind} (hkind : kind ≠ .loggingDegraded)
    (released : Option ReleaseOutcome) (s : SlotActor) :
    Moves s (s.dropLease reason kind released) := by
  cases released with
  | none => exact .refl
  | some released => exact (s.moves_abortRun _ _).trans (moves_emitRelease hkind _ _)

theorem moves_expireControl (s : SlotActor) : Moves s s.expireControl := by
  unfold expireControl
  extract_lets asked
  apply s.moves_ask.trans
  split
  · exact .refl
  · rename_i control released _
    extract_lets held cancelled loosened aborted
    have hheld : Moves asked held := asked.moves_setControl control
    have hcancelled : Moves held cancelled := held.moves_cancelPendingRunStart _
    have hloosened : Moves cancelled loosened := cancelled.moves_requestTriggerStop _ _
    have haborted : Moves loosened aborted := loosened.moves_abortRun _ _
    exact ((hheld.trans hcancelled).trans (hloosened.trans haborted)).trans
      (aborted.moves_emitRelease (by decide) released)

theorem moves_loseControl (pendingReason runReason : String) (s : SlotActor) :
    Moves s (s.loseControl pendingReason runReason) := by
  unfold loseControl
  extract_lets asked changed held cancelled
  have hheld : Moves s held := s.moves_ask.trans (asked.moves_setControl changed.1)
  have hcancelled : Moves held cancelled := held.moves_cancelPendingRunStart _
  apply (hheld.trans hcancelled).trans
  split
  · exact (cancelled.moves_abortRun _ _).trans (moves_emitRelease (by decide) _ _)
  · exact cancelled.moves_abortRun _ _

theorem moves_handleDisconnect (actorId : String) (s : SlotActor) :
    Moves s (s.handleDisconnect actorId) := by
  unfold handleDisconnect
  extract_lets owned loosened asked disconnected held cancelled
  have hloosened : Moves s loosened := moves_ite (s.moves_requestTriggerStop _ _) .refl
  have hheld : Moves loosened held :=
    loosened.moves_ask.trans (asked.moves_setControl disconnected.1)
  have hcancelled : Moves held cancelled := held.moves_cancelPendingForDisconnect _
  exact ((hloosened.trans hheld).trans hcancelled).trans
    (cancelled.moves_dropLease _ (by decide) _)

end Runs

/-! ## The port -/

section Port

theorem moves_setPort (s : SlotActor) (port : PortState) : Moves s (s.setPort port) :=
  moves_quiet ⟨rfl, rfl, rfl⟩

theorem moves_bufferTriggerRx (data : Bytes) (s : SlotActor) :
    Moves s (s.bufferTriggerRx data) := by
  unfold bufferTriggerRx
  split
  · exact .refl
  · extract_lets pushed buffered
    have hbuffered : Moves s buffered := s.moves_setTrigger _
    exact hbuffered.trans (moves_ite (buffered.moves_markTriggerStopping _ _) .refl)

theorem moves_handleRxData (data : Bytes) (s : SlotActor) : Moves s (s.handleRxData data) := by
  unfold handleRxData
  extract_lets asked _ heard writeWasInFlight observed marked
  have hheard : Moves s heard := s.moves_ask.trans (asked.moves_setPort _)
  have hobserved : Moves heard observed.1 := heard.moves_observeTriggerRx data
  have hmarked : Moves observed.1 marked := by
    simp only [marked]
    split
    · exact observed.1.moves_markTriggerStopping _ _
    · exact .refl
  apply ((hheard.trans hobserved).trans hmarked).trans
  apply moves_ite (marked.moves_bufferTriggerRx data)
  exact (marked.moves_emit (by decide) _ _ _ _ _).trans (moves_finishStoppedTriggerIfIdle _)

theorem moves_addTriggerGap (droppedBytes : ℕ) (s : SlotActor) :
    Moves s (s.addTriggerGap droppedBytes) := by
  unfold addTriggerGap
  split
  · exact .refl
  · exact s.moves_setTrigger _

theorem moves_handleRxOverflow (droppedBytes : ℕ) (s : SlotActor) :
    Moves s (s.handleRxOverflow droppedBytes) := by
  unfold handleRxOverflow
  extract_lets _ counted writeInFlight marked
  apply moves_ite .refl
  have hmarked : Moves s marked :=
    (s.moves_setPort _).trans (counted.moves_markTriggerStopping _ _)
  apply hmarked.trans
  apply moves_ite (marked.moves_addTriggerGap _)
  exact (marked.moves_emitGap _ _ _).trans (moves_finishStoppedTriggerIfIdle _)

theorem moves_drainPortEvent (s : SlotActor) (event : PortEvent) :
    Moves s (s.drainPortEvent event) := by
  unfold drainPortEvent
  extract_lets parts received
  have hreceived : Moves s received := by
    simp only [received]
    split
    · exact s.moves_handleRxData _
    · exact .refl
  exact hreceived.trans (received.moves_handleRxOverflow _)

theorem moves_stopPort (s : SlotActor) : Moves s s.stopPort := by
  unfold stopPort
  extract_lets stopped readerTail events _ closed drained counted
  have hclosed : Moves s closed := (s.moves_stopMacro _ _).trans (stopped.moves_setPort _)
  have hdrained : Moves closed drained := moves_foldl moves_drainPortEvent events closed
  have hcounted : Moves drained counted := drained.moves_handleRxOverflow _
  exact ((hclosed.trans hdrained).trans hcounted).trans
    (moves_ite .refl (counted.moves_handleRxData _))

theorem moves_stopPortAndTrigger (status : TriggerStatus) (s : SlotActor) :
    Moves s (s.stopPortAndTrigger status) := by
  unfold stopPortAndTrigger
  extract_lets marked
  have hmarked : Moves s marked := s.moves_markTriggerStopping _ _
  apply (hmarked.trans marked.moves_stopPort).trans
  exact (moves_settleTriggerWriteAfterPortStop _).trans (moves_finishStoppedTriggerIfIdle _)

theorem moves_scheduleRetry (s : SlotActor) : Moves s s.scheduleRetry :=
  moves_quiet ⟨rfl, rfl, rfl⟩

theorem moves_handlePortClosed (reason : String) (s : SlotActor) :
    Moves s (s.handlePortClosed reason) := by
  unfold handlePortClosed
  extract_lets stopped _ backoff lost
  have hstopped : Moves s stopped := s.moves_stopPortAndTrigger _
  have hlost : Moves stopped lost :=
    (stopped.moves_setPort _).trans (backoff.moves_loseControl _ _)
  apply (hstopped.trans hlost).trans
  exact (lost.moves_scheduleRetry.trans (moves_publishSnapshot _)).trans
    (moves_emitSystem _ (by decide) _)

theorem moves_handlePortEvent (event : PortEvent) (s : SlotActor) :
    Moves s (s.handlePortEvent event) := by
  cases event with
  | rx data => exact s.moves_handleRxData data
  | overflow droppedBytes => exact s.moves_handleRxOverflow droppedBytes
  | closed reason droppedBytes =>
      exact (s.moves_handleRxOverflow droppedBytes).trans (moves_handlePortClosed reason _)
  | readerBarrier id => exact .refl

theorem moves_installPort (session : PortSession) (s : SlotActor) :
    Moves s (s.installPort session) := by
  unfold installPort
  extract_lets run
  exact (s.moves_setPort _).trans (moves_record _ rfl)

theorem moves_openedPort (session : PortSession) (s : SlotActor) :
    Moves s (s.openedPort session) := by
  unfold openedPort
  extract_lets generation _ raised asked changed held cancelled dropped installed _ ready
  have hheld : Moves s held :=
    ((s.moves_setPort _).trans raised.moves_ask).trans (asked.moves_setControl _)
  have hcancelled : Moves held cancelled := held.moves_cancelPendingRunStart _
  have hdropped : Moves cancelled dropped := cancelled.moves_dropLease _ (by decide) _
  have hinstalled : Moves dropped installed := dropped.moves_installPort session
  have hready : Moves installed ready := installed.moves_setPort _
  apply ((hheld.trans hcancelled).trans (hdropped.trans hinstalled)).trans
  exact (hready.trans ready.moves_publishSnapshot).trans (moves_emitSystem _ (by decide) _)

theorem moves_openFailed (error : PortOpenError) (s : SlotActor) :
    Moves s (s.openFailed error) := by
  unfold openFailed
  extract_lets _ failed
  have hfailed : Moves s failed.scheduleRetry :=
    (s.moves_setPort _).trans failed.moves_scheduleRetry
  exact (hfailed.trans (moves_publishSnapshot _)).trans (moves_emitSystem _ (by decide) _)

theorem moves_tryOpen (s : SlotActor) : Moves s s.tryOpen := by
  unfold tryOpen
  extract_lets asked _ opening announced answered
  have hopening : Moves s opening := s.moves_ask.trans (asked.moves_setPort _)
  have hannounced : Moves opening announced :=
    opening.moves_publishSnapshot.trans (moves_emitSystem _ (by decide) _)
  apply (hopening.trans hannounced).trans
  apply announced.moves_ask.trans
  split
  · exact answered.moves_openedPort _
  · exact answered.moves_openFailed _

theorem moves_receivePortEvent (s : SlotActor) : Moves s s.receivePortEvent.1 := by
  unfold receivePortEvent
  split
  · exact s.moves_setPort _
  · exact s.moves_setPort _

theorem moves_awaitBarrier (barrierId : Uuid) (fuel : ℕ) (s : SlotActor) :
    Moves s (awaitBarrier barrierId fuel s).1 := by
  induction fuel generalizing s with
  | zero => exact .refl
  | succ fuel ih =>
      unfold awaitBarrier
      split
      · exact .refl
      · have hreceived := s.moves_receivePortEvent
        split
        · rename_i t heq
          rw [heq] at hreceived
          exact hreceived
        · rename_i t id heq
          rw [heq] at hreceived
          split
          · exact hreceived
          · exact hreceived.trans (ih t)
        · rename_i t event _ heq
          rw [heq] at hreceived
          have hhandled : Moves s (t.handlePortEvent event) :=
            hreceived.trans (t.moves_handlePortEvent event)
          extract_lets handled
          split
          · exact hhandled
          · exact hhandled.trans (ih _)

theorem moves_flushPretriggerRx (s : SlotActor) : Moves s s.flushPretriggerRx.1 := by
  unfold flushPretriggerRx
  extract_lets asked
  split
  · exact s.moves_ask
  · split
    · exact s.moves_ask
    · exact s.moves_ask.trans (asked.moves_awaitBarrier _ _)

theorem moves_drainUntilWriteSettles (fuel : ℕ) (s : SlotActor) :
    Moves s (drainUntilWriteSettles fuel s) := by
  induction fuel generalizing s with
  | zero => exact .refl
  | succ fuel ih =>
      unfold drainUntilWriteSettles
      extract_lets asked
      split
      · split
        · have hreceived := asked.moves_receivePortEvent
          split
          · rename_i t event heq
            rw [heq] at hreceived
            exact (s.moves_ask.trans hreceived).trans ((t.moves_handlePortEvent event).trans (ih _))
          · rename_i t heq
            rw [heq] at hreceived
            exact s.moves_ask.trans hreceived
        · exact s.moves_ask.trans ((moves_receiveTriggerWriteResult _).trans (ih _))
      · exact .refl

theorem moves_quiesceTriggerForHumanCommand (s : SlotActor) :
    Moves s s.quiesceTriggerForHumanCommand := by
  unfold quiesceTriggerForHumanCommand
  extract_lets marked fuel
  have hmarked : Moves s marked := s.moves_markTriggerStopping _ _
  exact (hmarked.trans (marked.moves_drainUntilWriteSettles fuel)).trans
    (moves_finishStoppedTriggerIfIdle _)

end Port

end SlotActor
end SerialPlatform
