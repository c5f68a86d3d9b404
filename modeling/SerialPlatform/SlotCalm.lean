import Mathlib
import SerialPlatform.SlotFlight

/-!
# Calm functions of the actor

Received bytes, write results and Trigger timers take calm steps only: the lease,
the Run and the pending approval stay as they are.
-/

namespace SerialPlatform

theorem View.Noted.calmly {v w : View} (h : View.Noted v w) : Calmly v w := by
  cases h with
  | nil => exact .refl
  | note hnote hnext =>
      refine .single (.note ?_ ⟨hnote.direction, hnote.data, hnext⟩)
      rw [hnote.kind]
      rfl

theorem Calm.calmly {v w : View} (h : Calm v w) : Calmly v w := .single h

theorem ActiveTrigger.deadlineStatus_terminal (trigger : ActiveTrigger) :
    trigger.deadlineStatus.isTerminal = true := by
  unfold deadlineStatus
  split_ifs <;> rfl

theorem ActiveTrigger.deadlineStatus_ne_matched (trigger : ActiveTrigger) :
    trigger.deadlineStatus ≠ .matched := by
  unfold deadlineStatus
  split_ifs <;> decide

namespace SlotActor

variable (hand : List RxSegment)

/-! ## Emission -/

section Emission

variable {kind : EventKind} {data : Bytes} {actor : Option Actor}
  {operationId runId : Option Uuid} {metadata : Metadata}

theorem mandate_view (s : SlotActor) : (s.view hand).mandate = s.mandate := rfl

theorem mandate_emitInner {direction : Direction} (s : SlotActor) :
    (s.emitInner kind direction data actor operationId runId metadata).mandate =
      s.mandate := by
  obtain ⟨event, -, -, hnoted⟩ := s.view_emitInner [] kind direction data actor
    operationId runId metadata
  exact hnoted.mandate_eq

/-- The event of an emission without bytes, and the notes behind it. -/
theorem view_emitEvent (kind : EventKind) (actor : Option Actor)
    (operationId runId : Option Uuid) (metadata : Metadata) (s : SlotActor) :
    ∃ event, EventIs event kind .none [] actor operationId runId metadata ∧
      (s.view hand).IsEvent event ∧
      View.Noted ((s.view hand).emit event)
        ((s.emitInner kind .none [] actor operationId runId metadata).view hand) := by
  obtain ⟨event, his, hnext, hnoted⟩ := s.view_emitInner hand kind .none [] actor
    operationId runId metadata
  exact ⟨event, his, ⟨his.direction, his.data, hnext⟩, hnoted⟩

theorem calmly_emitInner (s : SlotActor) (hplain : kind.isPlain = true) :
    Calmly (s.view hand)
      ((s.emitInner kind .none [] actor operationId runId metadata).view hand) := by
  obtain ⟨event, his, hevent, hnoted⟩ := s.view_emitEvent hand kind actor operationId runId
    metadata
  exact .head (.note (by rw [his.kind]; exact hplain) hevent) hnoted.calmly

theorem calmly_publishNondurableLoggingEvent (error : String) (s : SlotActor) :
    Calmly (s.view hand) ((s.publishNondurableLoggingEvent error).view hand) :=
  (s.view_publishNondurableLoggingEvent hand error).calmly

theorem calmly_handleJournalAckResult (seq : ℕ) (outcome : JournalAckOutcome)
    (s : SlotActor) :
    Calmly (s.view hand) ((s.handleJournalAckResult seq outcome).view hand) := by
  have hdegrade : ∀ error : String, Calmly (s.view hand)
      ((if (s.markLoggingDegradedAt error seq).2 then
          (s.markLoggingDegradedAt error seq).1.publishNondurableLoggingEvent error
        else (s.markLoggingDegradedAt error seq).1).view hand) := by
    intro error
    have hmark := s.view_markLoggingDegradedAt hand error seq
    split_ifs
    · rw [← hmark]
      exact calmly_publishNondurableLoggingEvent hand error _
    · rw [hmark]
  cases outcome with
  | durable =>
      simp only [handleJournalAckResult]
      split_ifs <;> exact .refl
  | failed error => exact hdegrade error
  | timedOut => exact hdegrade _

end Emission

/-! ## Stopping a Trigger -/

theorem view_markTriggerStopping (status : TriggerStatus) (matchedPattern : Option Bytes)
    (s : SlotActor) :
    (s.markTriggerStopping status matchedPattern).view hand =
      (s.view hand).mark status matchedPattern := by
  have hview : (s.view hand).activeTrigger = s.trigger.activeTrigger := rfl
  unfold markTriggerStopping View.mark
  rw [hview]
  cases s.trigger.activeTrigger <;> rfl

theorem calmly_markTriggerStopping {status : TriggerStatus}
    {matchedPattern : Option Bytes} (hterminal : status.isTerminal = true)
    (hpattern : matchedPattern.isSome = true ↔ status = .matched) (s : SlotActor) :
    Calmly (s.view hand) ((s.markTriggerStopping status matchedPattern).view hand) := by
  rw [view_markTriggerStopping]
  exact (Calm.mark hterminal hpattern).calmly

/-- A reason which is not a match. -/
theorem calmly_markStopping {status : TriggerStatus} (hterminal : status.isTerminal = true)
    (hmatched : status ≠ .matched) (s : SlotActor) :
    Calmly (s.view hand) ((s.markTriggerStopping status none).view hand) :=
  s.calmly_markTriggerStopping hand hterminal
    (iff_of_false (by simp) hmatched)

theorem triggerInfo_of_metadata {event : TimelineEvent} {info : TriggerInfo}
    (hmetadata : event.metadata = triggerEventMetadata info) :
    event.triggerInfo = some info := by
  simp [TimelineEvent.triggerInfo, hmetadata, triggerEventMetadata, List.lookup]

theorem calmly_finishTrigger {trigger : ActiveTrigger} {status : TriggerStatus}
    {matchedPattern : Option Bytes} (s : SlotActor)
    (htrigger : s.trigger.activeTrigger = some trigger)
    (hidle : trigger.writeInFlight = none)
    (hpending : trigger.pendingTerminal = some (status, matchedPattern)) :
    Calmly (s.view hand) ((s.finishTrigger trigger status matchedPattern).view hand) := by
  unfold finishTrigger
  extract_lets _ taken info finished
  obtain ⟨event, his, hevent, hnoted⟩ := taken.view_emitEvent hand
    (triggerTerminalKind status) (some info.owner) info.operationId trigger.boundRunId
    (triggerEventMetadata info)
  refine .head (Calm.finish (v := s.view hand) htrigger hidle hpending
    his.kind (triggerInfo_of_metadata his.metadata) ⟨hevent.direction, hevent.data,
      ⟨hevent.next.seq, hevent.next.offsets, hevent.next.port, hevent.next.epoch⟩⟩) ?_
  rw [view_publishSnapshot, view_retireTrigger]
  exact hnoted.calmly

theorem calmly_finishStoppedTriggerIfIdle (s : SlotActor) :
    Calmly (s.view hand) (s.finishStoppedTriggerIfIdle.view hand) := by
  unfold finishStoppedTriggerIfIdle
  split
  · exact .refl
  · rename_i trigger htrigger
    split
    · rename_i status matchedPattern hidle hpending
      exact s.calmly_finishTrigger hand htrigger hidle hpending
    · exact .refl

theorem calmly_requestTriggerStop {status : TriggerStatus}
    (hterminal : status.isTerminal = true) (hmatched : status ≠ .matched) (s : SlotActor) :
    Calmly (s.view hand) ((s.requestTriggerStop status none).view hand) := by
  have hmark := s.calmly_markStopping hand hterminal hmatched
  unfold requestTriggerStop
  simp only
  split_ifs
  · exact hmark
  · exact hmark.trans (calmly_finishStoppedTriggerIfIdle hand _)

/-! ## Trigger writes -/

theorem sent_writerRun {worker : PortWorker} {data : Bytes} {pacing : WritePacing}
    {s : SlotActor} (hport : s.port.port = some worker) :
    (s.view hand).Sent worker data (s.writerRun worker data pacing) := by
  refine ⟨hport, fun outcome houtcome => ?_, fun hstopped => ?_⟩
  · unfold writerRun at houtcome ⊢
    split_ifs at houtcome ⊢ with hstopped
    exact writeWithPacing_spec houtcome
  · unfold writerRun
    rw [if_pos hstopped]

section Writing

variable {trigger : ActiveTrigger} {kind : TriggerWriteKind} {data : Bytes}

/-- The port queue took the write. -/
theorem calmly_handOver {worker : PortWorker} {run : WriterRun} (s : SlotActor)
    (htrigger : s.trigger.activeTrigger = some trigger)
    (hopen : trigger.pendingTerminal = none) (hidle : trigger.writeInFlight = none)
    (hplan : trigger.writePlan = .write kind data) (hdeadline : s.now < trigger.deadline)
    (hsent : (s.view hand).Sent worker data run) :
    Calmly (s.view hand)
      ((((s.record (.portWrite (.trigger trigger.info.id kind) trigger.info.owner data run
        s.now)).setTrigger (trigger.writeHanded kind)).forwardTriggerWriteResult {
          triggerId := trigger.info.id
          kind := kind
          data := data
          outcome := triggerWriteAnswer run }).publishSnapshot.view hand) :=
  (Calm.handOver (v := s.view hand) htrigger hopen hidle hplan hdeadline hsent).calmly

theorem calmly_enqueueTriggerWrite {pacing : WritePacing} (s : SlotActor)
    (htrigger : s.trigger.activeTrigger = some trigger)
    (hopen : trigger.pendingTerminal = none) (hidle : trigger.writeInFlight = none)
    (hplan : trigger.writePlan = .write kind data) :
    Calmly (s.view hand) ((s.enqueueTriggerWrite trigger kind data pacing).view hand) := by
  unfold enqueueTriggerWrite
  extract_lets asked
  split_ifs with hdeadline
  · exact asked.calmly_requestTriggerStop hand trigger.deadlineStatus_terminal
      trigger.deadlineStatus_ne_matched
  · split
    · exact asked.calmly_requestTriggerStop hand (by decide) (by decide)
    · rename_i worker hport
      split
      · exact asked.calmly_requestTriggerStop hand (by decide) (by decide)
      · exact asked.calmly_requestTriggerStop hand (by decide) (by decide)
      · exact asked.calmly_handOver hand htrigger hopen hidle hplan
          (Nat.lt_of_not_le hdeadline) (sent_writerRun hand hport)

theorem calmly_authorizeTriggerWrite (s : SlotActor)
    (htrigger : s.trigger.activeTrigger = some trigger)
    (hopen : trigger.pendingTerminal = none) (hidle : trigger.writeInFlight = none)
    (hplan : trigger.writePlan = .write kind data) :
    Calmly (s.view hand) ((s.authorizeTriggerWrite trigger kind data).view hand) := by
  unfold authorizeTriggerWrite
  generalize ensureLeaseCoversWrite = covers
  simp only
  generalize WritePacing.resolve trigger.info.spec.pacing s.effectiveSerialSettings = pacing
  cases writeDeadline data.length pacing.chunkSize pacing.chunkDelayMs with
  | error _ => exact s.calmly_requestTriggerStop hand (by decide) (by decide)
  | ok writeTimeout =>
      have hasked : s.ask.trigger.activeTrigger = some trigger := htrigger
      change Calmly (s.ask.view hand) _
      generalize s.ask = asked at hasked ⊢
      simp only
      cases asked.authority.control.remainingTtl trigger.info.owner.id
          trigger.info.controlId trigger.info.fence asked.now with
      | error _ => exact asked.calmly_requestTriggerStop hand (by decide) (by decide)
      | ok leaseRemaining =>
          simp only
          cases covers leaseRemaining writeTimeout with
          | error _ => exact asked.calmly_requestTriggerStop hand (by decide) (by decide)
          | ok _ => exact asked.calmly_enqueueTriggerWrite hand hasked hopen hidle hplan

theorem writePlan_stop {status : TriggerStatus} (hplan : trigger.writePlan = .stop status) :
    status.isTerminal = true ∧ status ≠ .matched := by
  unfold ActiveTrigger.writePlan at hplan
  by_cases hinitial : trigger.initialPending = true
  · rw [if_pos hinitial] at hplan
    cases hwrite : trigger.info.spec.initialWrite with
    | none =>
        rw [hwrite] at hplan
        cases hplan
        exact ⟨rfl, by decide⟩
    | some data =>
        rw [hwrite] at hplan
        cases hplan
  · rw [if_neg hinitial] at hplan
    by_cases hstart : (!trigger.startSeen) = true
    · rw [if_pos hstart] at hplan
      cases hplan
    · rw [if_neg hstart] at hplan
      by_cases hfires : trigger.info.spec.maxFires ≤ trigger.info.firesConfirmed
      · rw [if_pos hfires] at hplan
        by_cases hpatterns : trigger.info.spec.stopContains = []
        · rw [if_pos hpatterns] at hplan
          cases hplan
          exact ⟨rfl, by decide⟩
        · rw [if_neg hpatterns] at hplan
          cases hplan
      · rw [if_neg hfires] at hplan
        cases hplan

theorem calmly_checkTriggerWrite (s : SlotActor)
    (htrigger : s.trigger.activeTrigger = some trigger)
    (hopen : trigger.pendingTerminal = none) (hidle : trigger.writeInFlight = none) :
    Calmly (s.view hand) ((s.checkTriggerWrite trigger).view hand) := by
  unfold checkTriggerWrite
  split_ifs
  · exact s.calmly_requestTriggerStop hand (by decide) (by decide)
  · exact s.calmly_requestTriggerStop hand (by decide) (by decide)
  · extract_lets asked
    split
    · exact asked.calmly_requestTriggerStop hand (by decide) (by decide)
    · split
      · exact asked.calmly_requestTriggerStop hand (by decide) (by decide)
      · split
        · rename_i status hplan
          obtain ⟨hterminal, hmatched⟩ := writePlan_stop hplan
          exact asked.calmly_requestTriggerStop hand hterminal hmatched
        · exact .refl
        · exact (Calm.unschedule (v := s.view hand) htrigger).calmly
        · rename_i hplan
          exact asked.calmly_authorizeTriggerWrite hand htrigger hopen hidle hplan

theorem calmly_beginTriggerWrite (s : SlotActor) :
    Calmly (s.view hand) (s.beginTriggerWrite.view hand) := by
  unfold beginTriggerWrite
  extract_lets asked
  split
  · exact .refl
  · rename_i trigger htrigger
    split_ifs with hdeadline hblocked
    · exact asked.calmly_requestTriggerStop hand trigger.deadlineStatus_terminal
        trigger.deadlineStatus_ne_matched
    · exact .refl
    · simp only [Bool.or_eq_true, not_or, Bool.not_eq_true, Option.isSome_eq_false_iff,
        Option.isNone_iff_eq_none] at hblocked
      exact asked.ask.calmly_checkTriggerWrite hand htrigger hblocked.1.1 hblocked.1.2

end Writing

/-! ## Trigger results -/

section Results

variable {trigger : ActiveTrigger} {result : TriggerWriteResult}

theorem lookup_triggerTxMetadata (trigger : ActiveTrigger) (result : TriggerWriteResult)
    (written : ℕ) :
    (triggerTxMetadata trigger result written).lookup "human_command" = none ∧
      (triggerTxMetadata trigger result written).lookup "trigger_id" =
        some (.uuid trigger.info.id) := by
  unfold triggerTxMetadata
  cases result.kind <;> simp [List.lookup]

theorem view_emitTriggerTx (s : SlotActor) :
    (s.view hand).TriggerTx trigger result
      ((s.emitTriggerTx trigger result result.written).view hand) := by
  unfold emitTriggerTx
  split_ifs with hwritten
  · obtain ⟨event, his, hnext, hnoted⟩ := s.view_emitInner hand .tx .tx
      (result.data.take result.written) (some trigger.info.owner) trigger.info.operationId
      trigger.boundRunId (triggerTxMetadata trigger result result.written)
    obtain ⟨hhuman, htrigger⟩ := lookup_triggerTxMetadata trigger result result.written
    have hseq : event.seq = s.nextSeq := hnext.seq
    have htx := @View.TriggerTx.tx _ trigger _ _ _ hwritten
      ⟨his.kind, his.direction, his.actor, his.data, hnext⟩
      (by rw [TimelineEvent.isHumanCommand, his.metadata, hhuman])
      (by rw [TimelineEvent.triggerId, his.metadata, htrigger]) hnoted
    rw [hseq] at htx
    exact htx
  · exact .silent (by omega)

theorem view_confirmTriggerWrite (kind : TriggerWriteKind) (s : SlotActor) :
    (s.confirmTriggerWrite kind).view hand = (s.view hand).confirm kind s.ask.now := by
  have hview : (s.view hand).activeTrigger = s.ask.trigger.activeTrigger := rfl
  unfold confirmTriggerWrite View.confirm
  rw [hview]
  simp only
  cases s.ask.trigger.activeTrigger with
  | none => rfl
  | some trigger =>
      simp only
      cases (trigger.confirmWrite kind s.ask.now).2 with
      | none => rfl
      | some status => exact view_markTriggerStopping hand status none _

theorem lookup_dropped (count : ℕ) (reason : String) :
    List.lookup "dropped_bytes"
      [("reason", MetaValue.str reason), ("dropped_bytes", MetaValue.num count)] =
        some (.num count) := by
  simp [List.lookup]

/-- Counting lost bytes emits one gap event. -/
theorem view_emitGap (runId : Option Uuid) (count : ℕ) (reason : String) (s : SlotActor) :
    ∃ event, ((s.view hand).skipRx count).IsGap event count ∧
      View.Noted (((s.view hand).skipRx count).emit event)
        ((s.emitGap runId count
          [("reason", .str reason), ("dropped_bytes", .num count)]).view hand) := by
  obtain ⟨event, his, hevent, hnoted⟩ :=
    ({ s with timeline.rxOffset := satAdd u64Max s.timeline.rxOffset count } :
      SlotActor).view_emitEvent hand .gap (some systemActor) none runId
      [("reason", .str reason), ("dropped_bytes", .num count)]
  refine ⟨event, ⟨his.kind, ?_, hevent⟩, hnoted⟩
  rw [TimelineEvent.droppedBytes, his.metadata, lookup_dropped]

theorem view_emitBufferedEvents (runId : Option Uuid) (events rest : List PortEvent)
    (s : SlotActor) {flushed : View}
    (hrest : View.Flushed rest ((events.foldl (emitBufferedEvent runId) s).view hand)
      flushed) : View.Flushed (events ++ rest) (s.view hand) flushed := by
  induction events generalizing s with
  | nil => exact hrest
  | cons event events ih =>
      have htail := ih (s.emitBufferedEvent runId event) hrest
      cases event with
      | rx data =>
          obtain ⟨event, his, hnext, hnoted⟩ := s.view_emitInner hand .rx .rx data
            (some deviceActor) none runId []
          exact .rx ⟨his.kind, his.direction, his.data, hnext⟩ hnoted htail
      | overflow count =>
          obtain ⟨event, hgap, hnoted⟩ :=
            s.view_emitGap hand runId count "serial receive queue overflow"
          exact .gap hgap hnoted htail
      | closed reason count =>
          exact .skip (by simp) (by simp) htail
      | readerBarrier id => exact .skip (by simp) (by simp) htail

/-- The buffer of the Trigger is emitted whole. -/
theorem view_flushBufferedRx (s : SlotActor)
    (htrigger : s.trigger.activeTrigger = some trigger) :
    View.Flushed trigger.bufferedRx.queued (s.view hand).clearBuffer
      (s.flushBufferedRx.view hand) := by
  have hclear : (s.view hand).clearBuffer =
      (s.setTrigger { trigger with bufferedRx := {} }).view hand := by
    simp only [View.clearBuffer, view_setTrigger]
    rw [show (s.view hand).activeTrigger = some trigger from htrigger]
    rfl
  unfold flushBufferedRx
  rw [htrigger]
  simp only
  rw [hclear]
  refine view_emitBufferedEvents hand trigger.boundRunId _ _ _ ?_
  by_cases hdropped : trigger.bufferedRx.droppedBytes = 0
  · rw [if_pos hdropped, if_neg (by omega)]
    exact .done
  · rw [if_neg hdropped, if_pos (by omega)]
    obtain ⟨event, hgap, hnoted⟩ := view_emitGap hand trigger.boundRunId
      trigger.bufferedRx.droppedBytes
      "Trigger RX audit buffer exceeded its bounded capacity" _
    exact .gap hgap hnoted .done

theorem TriggerTx_bufferedRx {v w : View} (h : v.TriggerTx trigger result w)
    (htrigger : v.activeTrigger = some trigger) :
    ∃ sent, w.activeTrigger = some sent ∧ sent.bufferedRx = trigger.bufferedRx := by
  cases h with
  | silent => exact ⟨trigger, htrigger, rfl⟩
  | tx => exact ⟨_, rfl, rfl⟩

theorem mark_bufferedRx {v : View} (status : TriggerStatus)
    (matchedPattern : Option Bytes) (htrigger : v.activeTrigger = some trigger) :
    ∃ marked, (v.mark status matchedPattern).activeTrigger = some marked ∧
      marked.bufferedRx = trigger.bufferedRx := by
  unfold View.mark
  rw [htrigger]
  exact ⟨_, rfl, rfl⟩

theorem confirmWrite_bufferedRx (trigger : ActiveTrigger) (kind : TriggerWriteKind)
    (now : ℕ) : (trigger.confirmWrite kind now).1.bufferedRx = trigger.bufferedRx := by
  cases kind with
  | initial =>
      simp only [ActiveTrigger.confirmWrite, ActiveTrigger.confirmInitialWrite]
      split_ifs <;> rfl
  | action =>
      simp only [ActiveTrigger.confirmWrite, ActiveTrigger.confirmActionWrite]
      split_ifs <;> rfl

theorem confirm_bufferedRx {v : View} (kind : TriggerWriteKind) (now : ℕ)
    (htrigger : v.activeTrigger = some trigger) :
    ∃ confirmed, (v.confirm kind now).activeTrigger = some confirmed ∧
      confirmed.bufferedRx = trigger.bufferedRx := by
  have hbuffered := confirmWrite_bufferedRx trigger kind now
  unfold View.confirm
  rw [htrigger]
  simp only
  cases (trigger.confirmWrite kind now).2 with
  | none => exact ⟨_, rfl, hbuffered⟩
  | some status =>
      obtain ⟨marked, hmarked, heq⟩ := mark_bufferedRx status none
        (v := { v with activeTrigger := some (trigger.confirmWrite kind now).1 }) rfl
      exact ⟨marked, hmarked, heq.trans hbuffered⟩

/-- A result is settled in one step, which takes it off the backlog. -/
theorem settle_acceptTriggerWriteResult {rest : List TriggerWriteResult} (s : SlotActor)
    (htrigger : s.trigger.activeTrigger = some trigger)
    (hresults : s.trigger.writeResults = result :: rest)
    (hid : trigger.info.id = result.triggerId)
    (hflight : trigger.writeInFlight = some result.kind) :
    ∃ w, Calm (s.view hand) w ∧ w.backlog < (s.view hand).backlog ∧
      Calmly w ((({ s with trigger.writeResults := rest } :
        SlotActor).acceptTriggerWriteResult trigger result).view hand) := by
  unfold acceptTriggerWriteResult
  extract_lets idle _ settled report sent confirmed
  have htx : ((s.view hand).settle trigger result.kind rest).TriggerTx idle result
      (sent.view hand) := settled.view_emitTriggerTx hand
  obtain ⟨held, hheld, hheldRx⟩ := TriggerTx_bufferedRx htx rfl
  have hview : confirmed.view hand =
      if result.isFull then (sent.view hand).confirm result.kind sent.ask.now
      else (sent.view hand).mark .writeFailed none := by
    simp only [confirmed]
    by_cases hfull : result.isFull
    · have hwhole : report.1 = result.data.length ∧ report.2 = none := hfull
      rw [if_pos hfull, if_pos hwhole]
      exact sent.view_confirmTriggerWrite hand _
    · have hpart : ¬ (report.1 = result.data.length ∧ report.2 = none) := hfull
      rw [if_neg hfull, if_neg hpart]
      exact sent.view_markTriggerStopping hand _ _
  obtain ⟨last, hlast, hlastRx⟩ : ∃ last, confirmed.trigger.activeTrigger = some last ∧
      last.bufferedRx = trigger.bufferedRx := by
    have hactive : confirmed.trigger.activeTrigger = (confirmed.view hand).activeTrigger := rfl
    rw [hactive, hview]
    split_ifs
    · obtain ⟨last, hlast, heq⟩ := confirm_bufferedRx result.kind sent.ask.now hheld
      exact ⟨last, hlast, heq.trans hheldRx⟩
    · obtain ⟨last, hlast, heq⟩ := mark_bufferedRx .writeFailed none hheld
      exact ⟨last, hlast, heq.trans hheldRx⟩
  have hflush := confirmed.view_flushBufferedRx hand hlast
  rw [hlastRx, hview] at hflush
  rw [view_publishSnapshot]
  exact ⟨_, .settle sent.ask.now htrigger hresults hid hflight htx hflush,
    View.backlog_settled hresults htx hflush, calmly_finishStoppedTriggerIfIdle hand _⟩

theorem calmly_receiveTriggerWriteResult (s : SlotActor) :
    Calmly (s.view hand) (s.receiveTriggerWriteResult.view hand) := by
  unfold receiveTriggerWriteResult
  split
  · exact .refl
  · rename_i result rest hresults
    unfold handleTriggerWriteResult
    split
    · rename_i hnone
      exact (Calm.discard (v := s.view hand) hresults
        (fun trigger htrigger => by cases hnone.symm.trans htrigger)).calmly
    · rename_i trigger htrigger
      split_ifs with hstale
      · refine (Calm.discard (v := s.view hand) hresults
          (fun other hother => ?_)).calmly
        obtain rfl := Option.some.inj (htrigger.symm.trans hother)
        exact hstale
      · simp only [not_or, not_not] at hstale
        obtain ⟨w, hstep, -, hrest⟩ :=
          s.settle_acceptTriggerWriteResult hand htrigger hresults hstale.1 hstale.2
        exact .head hstep hrest

theorem calmly_drainTriggerWriteResults (count : ℕ) (s : SlotActor) :
    Calmly (s.view hand) ((drainTriggerWriteResults count s).view hand) := by
  induction count generalizing s with
  | zero => exact .refl
  | succ count ih =>
      unfold drainTriggerWriteResults
      extract_lets asked
      split_ifs
      · exact (asked.calmly_receiveTriggerWriteResult hand).trans (ih _)
      · exact .refl

theorem calmly_settleTriggerWriteAfterPortStop (s : SlotActor) :
    Calmly (s.view hand) (s.settleTriggerWriteAfterPortStop.view hand) := by
  unfold settleTriggerWriteAfterPortStop
  extract_lets settled
  have hsettled : Calmly (s.view hand) (settled.view hand) := by
    simp only [settled]
    split_ifs
    · exact s.calmly_receiveTriggerWriteResult hand
    · exact .refl
  exact hsettled.trans (calmly_drainTriggerWriteResults hand _ _)

end Results

/-! ## Received bytes -/

theorem calmly_observeTriggerRx (data : Bytes) (s : SlotActor) :
    Calmly (s.view hand) ((s.observeTriggerRx data).1.view hand) := by
  unfold observeTriggerRx
  extract_lets asked
  split
  · exact .refl
  · rename_i trigger htrigger
    exact (Calm.observe (v := s.view hand) data asked.now htrigger).calmly

theorem observeRx_writeInFlight (trigger : ActiveTrigger) (data : Bytes) (now : ℕ) :
    (trigger.observeRx data now).1.writeInFlight = trigger.writeInFlight := by
  unfold ActiveTrigger.observeRx
  simp only
  split
  · rfl
  · split
    · split_ifs <;> rfl
    · rfl

theorem observeTriggerRx_inFlight (data : Bytes) (s : SlotActor) :
    (s.observeTriggerRx data).1.triggerWriteInFlight = s.triggerWriteInFlight := by
  have htrigger : s.ask.trigger.activeTrigger = s.trigger.activeTrigger := rfl
  unfold observeTriggerRx triggerWriteInFlight
  simp only [htrigger]
  cases hactive : s.trigger.activeTrigger with
  | none => simp only [htrigger, hactive]
  | some trigger =>
      simp only [setTrigger, Option.any_some, observeRx_writeInFlight]

theorem markTriggerStopping_inFlight (status : TriggerStatus)
    (matchedPattern : Option Bytes) (s : SlotActor) :
    (s.markTriggerStopping status matchedPattern).triggerWriteInFlight =
      s.triggerWriteInFlight := by
  unfold markTriggerStopping triggerWriteInFlight
  cases hactive : s.trigger.activeTrigger with
  | none => simp only [hactive]
  | some trigger => rfl

/-- Matching of one chunk, with the mark of a match. -/
theorem calmly_observed (data : Bytes) (s : SlotActor) :
    ∃ observed : SlotActor, Calmly (s.view hand) (observed.view hand) ∧
      observed.triggerWriteInFlight = s.triggerWriteInFlight ∧
      observed = match (s.observeTriggerRx data).2 with
        | some pattern =>
            (s.observeTriggerRx data).1.markTriggerStopping .matched (some pattern)
        | none => (s.observeTriggerRx data).1 := by
  refine ⟨_, ?_, ?_, rfl⟩
  · have hobserve := s.calmly_observeTriggerRx hand data
    cases (s.observeTriggerRx data).2 with
    | none => exact hobserve
    | some pattern =>
        exact hobserve.trans (calmly_markTriggerStopping hand rfl (by simp) _)
  · have hflight := observeTriggerRx_inFlight data s
    cases (s.observeTriggerRx data).2 with
    | none => exact hflight
    | some pattern => exact (markTriggerStopping_inFlight _ _ _).trans hflight

theorem calmly_bufferTriggerRx (data : Bytes) (s : SlotActor)
    (hflight : s.triggerWriteInFlight = true) :
    Calmly (s.view (.data data :: hand)) ((s.bufferTriggerRx data).view hand) := by
  unfold triggerWriteInFlight at hflight
  unfold bufferTriggerRx
  cases htrigger : s.trigger.activeTrigger with
  | none =>
      rw [htrigger] at hflight
      cases hflight
  | some trigger =>
      rw [htrigger] at hflight
      have hstep := Calm.rxBuffer (v := s.view (.data data :: hand)) rfl htrigger hflight
      simp only
      split_ifs
      · exact .head hstep (calmly_markStopping hand (by decide) (by decide)
          (s.setTrigger { trigger with bufferedRx := (trigger.bufferedRx.pushRx data).1 }))
      · exact hstep.calmly

theorem calmly_handleRxData (data : Bytes) (s : SlotActor) :
    Calmly (s.view (.data data :: hand)) ((s.handleRxData data).view hand) := by
  unfold handleRxData
  extract_lets asked _ noted writeWasInFlight observedPair observed
  obtain ⟨observed', hpath, hflight, heq⟩ :=
    noted.calmly_observed (.data data :: hand) data
  have hobserved : observed = observed' := heq.symm
  rw [← hobserved] at hpath hflight
  refine Relation.ReflTransGen.trans (b := observed.view (.data data :: hand)) hpath ?_
  split_ifs with hbusy
  · exact observed.calmly_bufferTriggerRx hand data (hflight.trans hbusy)
  · have hidle : (observed.view (.data data :: hand)).writeInFlight = false :=
      hflight.trans (Bool.eq_false_iff.mpr hbusy)
    obtain ⟨event, his, hnext, hnoted⟩ := observed.view_emitInner hand .rx .rx data
      (some deviceActor) none (observed.authority.activeRun.map RunInfo.id) []
    refine .head (Calm.rxEmit (v := observed.view (.data data :: hand)) rfl hidle
      ⟨his.kind, his.direction, his.data,
        ⟨hnext.seq, hnext.offsets, hnext.port, hnext.epoch⟩⟩) ?_
    exact hnoted.calmly.trans (calmly_finishStoppedTriggerIfIdle hand _)

theorem calmly_addTriggerGap (count : ℕ) (s : SlotActor)
    (hflight : s.triggerWriteInFlight = true) :
    Calmly (s.view (.gap count :: hand)) ((s.addTriggerGap count).view hand) := by
  unfold triggerWriteInFlight at hflight
  unfold addTriggerGap
  cases htrigger : s.trigger.activeTrigger with
  | none =>
      rw [htrigger] at hflight
      cases hflight
  | some trigger =>
      rw [htrigger] at hflight
      exact (Calm.gapBuffer (v := s.view (.gap count :: hand)) rfl htrigger hflight).calmly

theorem calmly_handleRxOverflow (count : ℕ) (s : SlotActor) :
    Calmly (s.view (gapSegments count ++ hand)) ((s.handleRxOverflow count).view hand) := by
  unfold handleRxOverflow gapSegments
  by_cases hzero : count = 0
  · rw [if_pos hzero, if_pos hzero]
    exact .refl
  · rw [if_neg hzero, if_neg hzero]
    extract_lets _ counted writeInFlight marked
    have hflight : marked.triggerWriteInFlight = writeInFlight :=
      markTriggerStopping_inFlight _ _ _
    have hmark : Calmly (s.view ([.gap count] ++ hand))
        (marked.view (.gap count :: hand)) :=
      calmly_markStopping (.gap count :: hand) rfl (by decide) counted
    refine hmark.trans ?_
    split_ifs with hbusy
    · exact marked.calmly_addTriggerGap hand count (hflight.trans hbusy)
    · have hidle : (marked.view (.gap count :: hand)).writeInFlight = false :=
        hflight.trans (Bool.eq_false_iff.mpr hbusy)
      obtain ⟨event, hgap, hnoted⟩ := marked.view_emitGap hand
        (marked.authority.activeRun.map RunInfo.id) count "serial receive queue overflow"
      refine .head (Calm.gapEmit (v := marked.view (.gap count :: hand)) rfl hidle
        ⟨hgap.kind, hgap.droppedBytes, hgap.event.direction, hgap.event.data,
          ⟨hgap.event.next.seq, hgap.event.next.offsets, hgap.event.next.port,
            hgap.event.next.epoch⟩⟩) ?_
      exact hnoted.calmly.trans (calmly_finishStoppedTriggerIfIdle hand _)

theorem calmly_drainPortEvent (event : PortEvent) (s : SlotActor) :
    Calmly (s.view (event.segments ++ hand)) ((s.drainPortEvent event).view hand) := by
  have hsilent : Calmly (s.view hand) ((s.handleRxOverflow 0).view hand) :=
    s.calmly_handleRxOverflow hand 0
  cases event with
  | rx data =>
      exact (s.calmly_handleRxData hand data).trans (calmly_handleRxOverflow hand 0 _)
  | overflow count => exact s.calmly_handleRxOverflow hand count
  | closed reason count => exact s.calmly_handleRxOverflow hand count
  | readerBarrier id => exact hsilent

theorem calmly_drainPortEvents (events : List PortEvent) (s : SlotActor) :
    Calmly (s.view (events.flatMap PortEvent.segments ++ hand))
      ((events.foldl drainPortEvent s).view hand) := by
  induction events generalizing s with
  | nil => exact .refl
  | cons event events ih =>
      have hhead := s.calmly_drainPortEvent
        (events.flatMap PortEvent.segments ++ hand) event
      rw [List.flatMap_cons, List.append_assoc]
      exact hhead.trans (ih _)

/-! ## Macros -/

theorem calmly_setMacro (next : Option ActiveMacro) (s : SlotActor)
    (hstarts : s.macros.activeMacro = none → next = none) :
    Calmly (s.view hand)
      (({ s with macros.activeMacro := next } : SlotActor).view hand) :=
  (Calm.macroMoves (v := s.view hand) next hstarts).calmly

theorem calmly_stopMacro (status : MacroStatus) (message : String) (s : SlotActor) :
    Calmly (s.view hand) ((s.stopMacro status message).view hand) := by
  unfold stopMacro
  cases hactive : s.macros.activeMacro with
  | none => exact .refl
  | some active =>
      simp only
      split_ifs
      · exact .refl
      · exact s.calmly_setMacro hand _ (fun hnone => by cases hactive.symm.trans hnone)

theorem calmly_macroProgress (progress : MacroProgress) (s : SlotActor) :
    Calmly (s.view hand) ((s.macroProgress progress).view hand) := by
  unfold macroProgress
  cases hactive : s.macros.activeMacro with
  | none => exact .refl
  | some active =>
      exact s.calmly_setMacro hand _ (fun hnone => by cases hactive.symm.trans hnone)

theorem calmly_finishMacro (id : Uuid) (s : SlotActor) :
    Calmly (s.view hand) ((s.finishMacro id).view hand) := by
  unfold finishMacro
  split
  · exact .refl
  · split_ifs
    · exact .refl
    · extract_lets asked info _ taken finished
      rw [view_retireMacro]
      exact .head (Calm.macroMoves (v := s.view hand) none (fun _ => rfl))
        (taken.calmly_emitInner hand rfl)

theorem calmly_reapMacro (s : SlotActor) :
    Calmly (s.view hand) (s.reapMacro.view hand) := by
  unfold reapMacro
  extract_lets asked
  cases hactive : asked.macros.activeMacro with
  | none => exact .refl
  | some active =>
      simp only
      split_ifs
      · exact .refl
      all_goals
        exact (asked.calmly_setMacro hand _
          (fun hnone => by cases hactive.symm.trans hnone)).trans (calmly_finishMacro hand _ _)

end SlotActor
end SerialPlatform
