import SerialPlatform.SlotConsistent
import SerialPlatform.SlotFlight

/-!
# Waiting for the workers

The actor opens and closes its port, waits for its own barrier and for the write
in flight.  While it waits the port may close; otherwise the mandate stays.
-/

namespace SerialPlatform

example : SlotActor.drainedPortEventParts (.closed "eof" 3) = (none, 3) := by decide +kernel

/-- Both workers of the port, if it has any, are gone. -/
def View.Gone (v : View) : Prop :=
  ∀ worker, v.port = some worker → worker.stopped = true

theorem Calm.gone {v w : View} (h : Calm v w) (hgone : v.Gone) : w.Gone := by
  cases h with
  | @mark status matchedPattern =>
      have hport := congrArg Surroundings.port (View.around_mark v status matchedPattern)
      exact fun worker hworker => hgone worker (hport.symm.trans hworker)
  | settle now _ _ _ _ htx hflush =>
      have hport := congrArg Surroundings.port (View.around_settled htx hflush)
      exact fun worker hworker => hgone worker (hport.symm.trans hworker)
  | workersGone =>
      intro worker hworker
      obtain ⟨before, -, rfl⟩ := Option.map_eq_some_iff.mp hworker
      rfl
  | _ => exact fun worker hworker => hgone worker hworker

theorem Calmly.gone {v w : View} (h : Calmly v w) (hgone : v.Gone) : w.Gone := by
  induction h with
  | refl => exact hgone
  | tail _ hstep ih => exact hstep.gone ih

namespace SlotActor

variable (hand : List RxSegment) {known : Actor → Prop} {allowed : Origin → Prop}

theorem offline_port {s : SlotActor} : s.mandate.online = false ↔ s.port.port = none := by
  show s.port.port.isSome = false ↔ _
  rw [Option.isSome_eq_false_iff, Option.isNone_iff_eq_none]

theorem online_port {s : SlotActor} : s.mandate.online = true ↔ s.port.port.isSome = true :=
  Iff.rfl

/-- Nothing rests on a port which is not open. -/
theorem Consistent.offline {s : SlotActor} (h : s.Consistent known)
    (hport : s.port.port = none) : s.authority.control.current = none := by
  cases hcurrent : s.authority.control.current with
  | none => rfl
  | some active =>
      have hlease : s.mandate.standing.control.currentLease = some active.lease := by
        show s.authority.control.currentLease = _
        rw [ControlState.currentLease, hcurrent]
        rfl
      have honline := (Mandate.Consistent.lease h active.lease hlease).2.2.2
      rw [offline_port.mpr hport] at honline
      cases honline

/-! ## Opening -/

theorem routinely_setPort (port : PortState) (s : SlotActor)
    (hport : port.port = s.port.port) (hevents : port.portEvents = s.port.portEvents) :
    Routinely (s.view hand) ((s.setPort port).view hand) := by
  rw [view_setPort hand port s hport hevents]
  exact .single (.stand (v := s.view hand) s.authority.control port.generation
    port.administrativelyPaused)

theorem opening_installPort (session : PortSession) (s : SlotActor)
    (hport : s.port.port = none) :
    Opening (s.view hand) ((s.installPort session).view hand) :=
  .openPort (v := s.view hand) session hport

theorem mandate_installPort (session : PortSession) (s : SlotActor) :
    (s.installPort session).mandate = { s.mandate with online := true } := rfl

/-- The steps of `openedPort` before the handle is installed. -/
def openedState (s : SlotActor) : SlotActor :=
  let generation := satAdd u64Max s.port.generation 1
  let s := s.setPort { s.port with endpointPresent := true, generation := generation }
  let s := s.ask
  let changed := s.authority.control.changeGeneration generation
  let s := s.setControl changed.1
  let s := s.cancelPendingRunStart "serial_generation_changed"
  s.dropLease "serial generation changed" .controlRevoked changed.2

theorem openedPort_eq (session : PortSession) (s : SlotActor) :
    s.openedPort session =
      let s := s.openedState.installPort session
      let s := s.setPort { s.port with
        sessionState := .online
        stateReason := none
        stateCode := none
        targetActivity := .unknown
        retryDelay := openBackoffMin }
      s.publishSnapshot.emitSystem .serialOpened
        [("port", .str s.config.port),
          ("baud_rate", .num s.effectiveSerialSettings.baudRate),
          ("backend", .str serialBackendName)] := rfl

theorem routinely_openedState (s : SlotActor) :
    Routinely (s.view hand) (s.openedState.view hand) := by
  unfold openedState
  extract_lets generation _ raised asked changed held cancelled
  have hraised : Routinely (s.view hand) (raised.view hand) :=
    s.routinely_setPort hand _ rfl rfl
  have hheld : Routinely (raised.view hand) (held.view hand) :=
    asked.routinely_setControl hand _
  have hcancelled : Routinely (held.view hand) (cancelled.view hand) :=
    held.routinely_cancelPendingRunStart hand _
  exact ((hraised.trans hheld).trans hcancelled).trans
    (cancelled.routinely_dropLease hand rfl _ _)

/-- Opening finds the port without a lease and leaves it so, one generation later. -/
theorem mandate_openedState {s : SlotActor} (h : s.Consistent known)
    (hport : s.port.port = none) :
    s.openedState.mandate =
      { s.mandate.withoutPending with
        standing.generation := satAdd u64Max s.port.generation 1
        standing.control.generation := satAdd u64Max s.port.generation 1 } := by
  have hidle := h.offline hport
  unfold openedState
  extract_lets generation _ raised asked changed held cancelled
  have hasked : asked.authority.control = s.authority.control := rfl
  have hchanged : changed = ({ s.authority.control with generation := generation }, none) := by
    simp only [changed, hasked, ControlState.changeGeneration, hidle]
  have hcancelled : cancelled.mandate = held.mandate.withoutPending :=
    held.mandate_cancelPendingRunStart _
  have hheld : held.mandate = asked.mandate.withControl changed.1 := rfl
  rw [mandate_dropLease rfl, hcancelled, hheld, hchanged]
  rfl

theorem offline_openedState {s : SlotActor} (h : s.Consistent known)
    (hport : s.port.port = none) : s.openedState.port.port = none := by
  rw [← offline_port, mandate_openedState h hport]
  exact offline_port.mpr hport

theorem consistent_openedPort (session : PortSession) {s : SlotActor}
    (h : s.Consistent known) (hport : s.port.port = none)
    (hpaused : s.port.administrativelyPaused = false) :
    (s.openedPort session).Consistent known := by
  have hidle := h.offline hport
  rw [openedPort_eq]
  extract_lets installed _ ready
  refine Consistent.of_mandate (s := installed) ?_
    (mandate_of_calmly (ready.publishSnapshot.calmly_emitSystem [] .serialOpened
      rfl _))
  have hmandate : installed.mandate = { s.openedState.mandate with online := true } := rfl
  unfold Consistent
  rw [hmandate, mandate_openedState h hport]
  have hlease : s.authority.control.currentLease = none := by
    rw [ControlState.currentLease, hidle]
    rfl
  refine ⟨rfl, h.epoch, fun lease hother => ?_, fun run hrun => ?_, fun run hrun => ?_,
    fun context run _ hrun => ?_, fun pending hpending => ?_, fun hother => ?_⟩
  · cases hlease.symm.trans hother
  · cases (Mandate.Consistent.idle_run h hidle).symm.trans hrun
  · cases (Mandate.Consistent.idle_run h hidle).symm.trans hrun
  · cases (Mandate.Consistent.idle_run h hidle).symm.trans hrun
  · cases hpending
  · cases hpaused.symm.trans hother

/-- One step opens the port; the others are routine. -/
theorem opening_openedPort (session : PortSession) {s : SlotActor}
    (h : s.Consistent known) (hport : s.port.port = none) :
    ∃ v w, Routinely (s.view hand) v ∧ Opening v w ∧
      Routinely w ((s.openedPort session).view hand) := by
  rw [openedPort_eq]
  extract_lets installed _ ready
  have hready : Routinely (installed.view hand) (ready.view hand) :=
    installed.routinely_setPort hand _ rfl rfl
  have hannounced := ready.publishSnapshot.calmly_emitSystem hand .serialOpened rfl
    [("port", .str ready.publishSnapshot.config.port),
      ("baud_rate", .num ready.publishSnapshot.effectiveSerialSettings.baudRate),
      ("backend", .str serialBackendName)]
  exact ⟨_, _, s.routinely_openedState hand,
    s.openedState.opening_installPort hand session (offline_openedState h hport),
    hready.trans hannounced.routinely⟩

/-- The attempt to open the port, up to the answer of the driver. -/
theorem tryOpen_eq (s : SlotActor) :
    ∃ t : SlotActor, Routinely (s.view hand) (t.view hand) ∧ t.mandate = s.mandate ∧
      s.tryOpen = match t.answer.opened with
        | .ok session => t.openedPort session
        | .error error => t.openFailed error := by
  unfold tryOpen
  extract_lets asked _ opening announced answered
  refine ⟨answered, ?_, ?_, rfl⟩
  · have hopening : Routinely (s.view hand) (opening.view hand) :=
      asked.routinely_setPort hand _ rfl rfl
    exact hopening.trans
      (opening.publishSnapshot.calmly_emitSystem hand .serialOpening rfl
        _).routinely
  · exact mandate_of_calmly
      (opening.publishSnapshot.calmly_emitSystem [] .serialOpening rfl _)

theorem routinely_openFailed (error : PortOpenError) (s : SlotActor) :
    Routinely (s.view hand) ((s.openFailed error).view hand) := by
  unfold openFailed
  extract_lets _ failed
  have hfailed : Routinely (s.view hand) (failed.view hand) :=
    s.routinely_setPort hand _ rfl rfl
  have hretry : Routinely (failed.view hand) (failed.scheduleRetry.view hand) :=
    failed.ask.routinely_setPort hand _ rfl rfl
  exact (hfailed.trans hretry).trans
    (failed.scheduleRetry.publishSnapshot.calmly_emitSystem hand .serialOpenFailed
      rfl _).routinely

theorem mandate_openFailed (error : PortOpenError) (s : SlotActor) :
    (s.openFailed error).mandate = s.mandate := by
  unfold openFailed
  extract_lets _ failed
  exact mandate_of_calmly (failed.scheduleRetry.publishSnapshot.calmly_emitSystem []
    .serialOpenFailed rfl _)

theorem tryOpen_spec {s : SlotActor} (h : s.Consistent known)
    (hport : s.port.port = none) (hpaused : s.port.administrativelyPaused = false) :
    Reaches known allowed (s.view hand) (s.tryOpen.view hand) ∧
      (s.view hand).Rests (s.tryOpen.view hand) ∧ s.tryOpen.Consistent known := by
  obtain ⟨t, hpath, hmandate, heq⟩ := s.tryOpen_eq hand
  have hopen : t.port.port = none := by
    rw [← offline_port, hmandate]
    exact offline_port.mpr hport
  have hresumed : t.port.administrativelyPaused = false :=
    (congrArg (fun m => m.standing.administrativelyPaused) hmandate).trans hpaused
  have hconsistent : t.Consistent known := h.of_mandate hmandate
  rw [heq]
  cases t.answer.opened with
  | ok session =>
      obtain ⟨v, w, hbefore, hopening, hafter⟩ :=
        opening_openedPort hand session hconsistent hopen
      refine ⟨?_, ?_, consistent_openedPort session hconsistent hopen hresumed⟩
      · exact ((hpath.trans hbefore).reaches.tail (.opening hopening)).trans hafter.reaches
      · exact ((hpath.trans hbefore).rests.trans hopening.rests).trans hafter.rests
  | error error =>
      have hfailed := hpath.trans (t.routinely_openFailed hand error)
      exact ⟨hfailed.reaches, hfailed.rests,
        hconsistent.of_mandate (t.mandate_openFailed error)⟩

/-! ## Receiving -/

/-- The next event of the port comes into the hand. -/
theorem receivePortEvent_some {s t : SlotActor} {event : PortEvent}
    (hreceived : s.receivePortEvent = (t, some event)) :
    Calmly (s.view hand) (t.view (event.segments ++ hand)) ∧ t.mandate = s.mandate ∧
      ∀ hand', (t.view hand').backlog + 1 = (s.view hand).backlog := by
  unfold receivePortEvent at hreceived
  cases hevents : s.port.portEvents with
  | none =>
      rw [hevents] at hreceived
      cases hreceived
  | some events =>
      cases events with
      | nil =>
          rw [hevents] at hreceived
          cases hreceived
      | cons first rest =>
          rw [hevents] at hreceived
          cases hreceived
          refine ⟨(Calm.receive (v := s.view hand) hevents).calmly, rfl, fun hand' => ?_⟩
          show rest.length + s.trigger.writeResults.length + 1 =
            (s.port.portEvents.getD []).length + s.trigger.writeResults.length
          rw [hevents, Option.getD_some, List.length_cons]
          omega

/-- The channel of the port ended, so both workers are gone. -/
theorem receivePortEvent_none {s t : SlotActor}
    (hreceived : s.receivePortEvent = (t, none)) :
    Calmly (s.view hand) (t.view hand) ∧ t.mandate = s.mandate ∧
      (t.view hand).Gone := by
  have hgone : s.port.portEvents.getD [] = [] ∧
      t = s.setPort { s.port with
        port := s.port.port.map fun worker => { worker with stopped := true } } := by
    unfold receivePortEvent at hreceived
    cases hevents : s.port.portEvents with
    | none =>
        rw [hevents] at hreceived
        exact ⟨rfl, (Prod.ext_iff.mp hreceived).1.symm⟩
    | some events =>
        cases events with
        | nil =>
            rw [hevents] at hreceived
            exact ⟨rfl, (Prod.ext_iff.mp hreceived).1.symm⟩
        | cons first rest =>
            rw [hevents] at hreceived
            cases (Prod.ext_iff.mp hreceived).2
  obtain ⟨hempty, rfl⟩ := hgone
  have hstep : Calm (s.view hand) _ := Calm.workersGone hempty
  refine ⟨hstep.calmly, hstep.mandate_eq, fun worker hworker => ?_⟩
  obtain ⟨before, -, rfl⟩ := Option.map_eq_some_iff.mp hworker
  rfl

/-- How a wait may leave the mandate: as it was, or without a port. -/
def Yielded (s t : SlotActor) : Prop :=
  t.mandate = s.mandate ∨ t.port.port = none

theorem yielded_handlePortEvent (event : PortEvent) (s : SlotActor) :
    s.Yielded (s.handlePortEvent event) := by
  rcases s.mandate_handlePortEvent event with hmandate | hmandate
  · exact .inl hmandate
  · refine .inr (offline_port.mp ?_)
    rw [hmandate]
    rfl

theorem Yielded.trans {s t u : SlotActor} (hst : s.Yielded t) (htu : t.Yielded u) :
    s.Yielded u := by
  rcases htu with hu | hu
  · rcases hst with ht | ht
    · exact .inl (hu.trans ht)
    · refine .inr (offline_port.mp ?_)
      rw [hu]
      exact offline_port.mpr ht
  · exact .inr hu

/-! ## The reader barrier -/

/-- Draining up to the barrier takes routine steps, and once it was reached the
mandate is what it was. -/
theorem awaitBarrier_spec (barrierId : Uuid) (fuel : ℕ) (s : SlotActor)
    (h : s.Consistent known) :
    Routinely (s.view hand) ((s.awaitBarrier barrierId fuel).1.view hand) ∧
      (s.awaitBarrier barrierId fuel).1.Consistent known ∧
      ((s.awaitBarrier barrierId fuel).2 = .ok () →
        (s.awaitBarrier barrierId fuel).1.mandate = s.mandate) := by
  induction fuel generalizing s with
  | zero => exact ⟨.refl, h, fun hok => by cases hok⟩
  | succ fuel ih =>
      unfold awaitBarrier
      split_ifs with hclosed
      · exact ⟨.refl, h, fun hok => by cases hok⟩
      · split
        · rename_i t hreceived
          obtain ⟨hpath, hmandate, -⟩ := receivePortEvent_none hand hreceived
          exact ⟨hpath.routinely, h.of_mandate hmandate, fun hok => by cases hok⟩
        · rename_i t id hreceived
          obtain ⟨hpath, hmandate, -⟩ := receivePortEvent_some hand hreceived
          have ht := h.of_mandate hmandate
          split_ifs
          · exact ⟨hpath.routinely, ht, fun _ => hmandate⟩
          · obtain ⟨hrest, hconsistent, hsame⟩ := ih t ht
            exact ⟨hpath.routinely.trans hrest, hconsistent,
              fun hok => (hsame hok).trans hmandate⟩
        · rename_i t event _ hreceived
          obtain ⟨hpath, hmandate, -⟩ := receivePortEvent_some hand hreceived
          have ht := h.of_mandate hmandate
          have hhandled := t.routinely_handlePortEvent hand event
          have hevent := consistent_handlePortEvent event ht
          simp only
          split_ifs with hoffline
          · exact ⟨hpath.routinely.trans hhandled, hevent, fun hok => by cases hok⟩
          · obtain ⟨hrest, hconsistent, hsame⟩ := ih _ hevent
            refine ⟨(hpath.routinely.trans hhandled).trans hrest, hconsistent,
              fun hok => (hsame hok).trans ?_⟩
            rcases t.yielded_handlePortEvent event with heq | hnone
            · exact heq.trans hmandate
            · rw [hnone] at hoffline
              exact absurd rfl hoffline

theorem flushPretriggerRx_spec (s : SlotActor) (h : s.Consistent known) :
    Routinely (s.view hand) (s.flushPretriggerRx.1.view hand) ∧
      s.flushPretriggerRx.1.Consistent known ∧
      (s.flushPretriggerRx.2 = .ok () → s.flushPretriggerRx.1.mandate = s.mandate) := by
  unfold flushPretriggerRx
  extract_lets asked
  split_ifs
  · exact ⟨.refl, h, fun hok => by cases hok⟩
  · exact ⟨.refl, h, fun hok => by cases hok⟩
  · exact asked.awaitBarrier_spec hand _ _ h

/-! ## The write in flight -/

/-- A result which comes in settles the write in flight. -/
theorem receiveTriggerWriteResult_backlog {s : SlotActor} (hflight : (s.view hand).FlightOk)
    (hbusy : s.triggerWriteInFlight = true) (hquelled : (s.view hand).Quelled) :
    (s.receiveTriggerWriteResult.view hand).backlog < (s.view hand).backlog := by
  obtain ⟨trigger, htrigger, hsome⟩ : ∃ trigger, s.trigger.activeTrigger = some trigger ∧
      trigger.writeInFlight.isSome = true := by
    unfold triggerWriteInFlight at hbusy
    cases htrigger : s.trigger.activeTrigger with
    | none =>
        rw [htrigger] at hbusy
        cases hbusy
    | some trigger =>
        rw [htrigger] at hbusy
        exact ⟨trigger, rfl, hbusy⟩
  obtain ⟨kind, hkind⟩ := Option.isSome_iff_exists.mp hsome
  obtain ⟨result, hresults, hid, hresultKind⟩ := hflight.flying trigger kind htrigger hkind
  have hwaiting : s.trigger.writeResults = [result] := hresults
  have hreceived : s.receiveTriggerWriteResult =
      ({ s with trigger.writeResults := [] } : SlotActor).handleTriggerWriteResult
        result := by
    unfold receiveTriggerWriteResult
    rw [hwaiting]
  have haccepted : s.receiveTriggerWriteResult =
      ({ s with trigger.writeResults := [] } : SlotActor).acceptTriggerWriteResult trigger
        result := by
    rw [hreceived]
    unfold handleTriggerWriteResult
    simp only [htrigger, hid, hkind, hresultKind, ne_eq, not_true_eq_false, or_self,
      if_false]
  obtain ⟨w, hstep, hlt, hrest⟩ := s.settle_acceptTriggerWriteResult hand htrigger hwaiting
    hid.symm (hkind.trans (congrArg some hresultKind.symm))
  rw [haccepted]
  have hquelled' : w.Quelled := hstep.quelled hquelled
  exact lt_of_le_of_lt (hrest.routinely.backlog_le hquelled') hlt

theorem quelled_of_calmly {v w : View} (h : Calmly v w) (hquelled : v.Quelled) :
    w.Quelled := h.routinely.quelled hquelled

/-- The loop which waits for a write ends with the write settled or with both
workers gone. -/
theorem drainUntilWriteSettles_spec (fuel : ℕ) (s : SlotActor) (h : s.Consistent known)
    (hflight : (s.view hand).FlightOk) (hquelled : (s.view hand).Quelled)
    (hfuel : (s.view hand).backlog < fuel) :
    Routinely (s.view hand) ((s.drainUntilWriteSettles fuel).view hand) ∧
      (s.drainUntilWriteSettles fuel).Consistent known ∧
      s.Yielded (s.drainUntilWriteSettles fuel) ∧
      ((s.drainUntilWriteSettles fuel).triggerWriteInFlight = false ∨
        ((s.drainUntilWriteSettles fuel).view hand).Gone) := by
  induction fuel generalizing s with
  | zero => exact absurd hfuel (Nat.not_lt_zero _)
  | succ fuel ih =>
      unfold drainUntilWriteSettles
      by_cases hbusy : s.triggerWriteInFlight = true
      · rw [if_pos hbusy]
        extract_lets asked
        split_ifs with hready
        · split
          · rename_i t event hreceived
            obtain ⟨hpath, hmandate, hlength⟩ :=
              receivePortEvent_some (s := asked) hand hreceived
            have ht : t.Consistent known := h.of_mandate hmandate
            have hhandled := t.routinely_handlePortEvent hand event
            have hmoved := hpath.routinely.trans hhandled
            have hless : ((t.handlePortEvent event).view hand).backlog < fuel := by
              have hle := hhandled.backlog_le (quelled_of_calmly hpath hquelled)
              have hone := hlength (event.segments ++ hand)
              have hsame : (asked.view hand).backlog = (s.view hand).backlog := rfl
              omega
            obtain ⟨hrest, hconsistent, hyielded, hend⟩ := ih _
              (consistent_handlePortEvent event ht) (hmoved.flightOk hflight)
              (hmoved.quelled hquelled) hless
            exact ⟨hmoved.trans hrest, hconsistent,
              Yielded.trans (.inl hmandate) ((t.yielded_handlePortEvent event).trans hyielded),
              hend⟩
          · rename_i t hreceived
            obtain ⟨hpath, hmandate, hstopped⟩ :=
              receivePortEvent_none (s := asked) hand hreceived
            exact ⟨hpath.routinely, h.of_mandate hmandate, .inl hmandate, .inr hstopped⟩
        · have hpath : Calmly (s.view hand) (asked.receiveTriggerWriteResult.view hand) :=
            asked.calmly_receiveTriggerWriteResult hand
          have hless : (asked.receiveTriggerWriteResult.view hand).backlog < fuel := by
            have hlt := receiveTriggerWriteResult_backlog (s := asked) hand hflight hbusy
              hquelled
            have hsame : (asked.view hand).backlog = (s.view hand).backlog := rfl
            omega
          have hmandate := mandate_of_calmly hpath
          obtain ⟨hrest, hconsistent, hyielded, hend⟩ := ih _ (h.of_mandate hmandate)
            (hpath.flightOk hflight) (quelled_of_calmly hpath hquelled) hless
          exact ⟨hpath.routinely.trans hrest, hconsistent,
            Yielded.trans (.inl hmandate) hyielded, hend⟩
      · rw [if_neg hbusy]
        exact ⟨.refl, h, .inl rfl, .inl (Bool.eq_false_iff.mpr hbusy)⟩

/-- A marked Trigger without a write in flight ends. -/
theorem finishStoppedTriggerIfIdle_none {s : SlotActor} (hquelled : (s.view hand).Quelled)
    (hidle : s.triggerWriteInFlight = false) :
    s.finishStoppedTriggerIfIdle.trigger.activeTrigger = none := by
  unfold finishStoppedTriggerIfIdle
  unfold triggerWriteInFlight at hidle
  split
  · assumption
  · rename_i trigger htrigger
    rw [htrigger] at hidle
    have hflight : trigger.writeInFlight = none :=
      Option.isSome_eq_false_iff.mp hidle |> Option.isNone_iff_eq_none.mp
    obtain ⟨⟨status, matchedPattern⟩, hpending⟩ :=
      Option.isSome_iff_exists.mp (hquelled trigger htrigger)
    rw [hflight, hpending]
    simp only
    unfold finishTrigger
    extract_lets _ taken info finished
    obtain ⟨event, -, -, hnoted⟩ := taken.view_emitEvent []
      (triggerTerminalKind status) (some info.owner) info.operationId trigger.boundRunId
      (triggerEventMetadata info)
    exact hnoted.goes.bare rfl

/-- After the wait the Trigger is gone, or both workers are. -/
theorem quiesceTriggerForHumanCommand_spec (s : SlotActor) (h : s.Consistent known)
    (hflight : (s.view hand).FlightOk) :
    Routinely (s.view hand) (s.quiesceTriggerForHumanCommand.view hand) ∧
      s.quiesceTriggerForHumanCommand.Consistent known ∧
      s.Yielded s.quiesceTriggerForHumanCommand ∧
      (s.quiesceTriggerForHumanCommand.trigger.activeTrigger = none ∨
        (s.quiesceTriggerForHumanCommand.view hand).Gone) := by
  unfold quiesceTriggerForHumanCommand
  extract_lets marked fuel
  have hmarked : Calmly (s.view hand) (marked.view hand) :=
    s.calmly_markStopping hand rfl (by decide)
  have hquelled : (marked.view hand).Quelled := by
    intro trigger htrigger
    have hview : marked.view hand = (s.view hand).mark .cancelled none :=
      s.view_markTriggerStopping hand _ _
    rw [hview] at htrigger
    unfold View.mark at htrigger
    cases hactive : (s.view hand).activeTrigger with
    | none =>
        rw [hactive] at htrigger
        cases hactive.symm.trans htrigger
    | some before =>
        rw [hactive] at htrigger
        obtain rfl := Option.some.inj htrigger
        exact before.pendingTerminal_markStopping _ _
  obtain ⟨hpath, hconsistent, hyielded, hend⟩ := marked.drainUntilWriteSettles_spec hand fuel
    (h.of_mandate (mandate_of_calmly hmarked)) (hmarked.flightOk hflight) hquelled
    (Nat.lt_succ_self _)
  have hdrained := (hmarked.routinely.trans hpath)
  have hfinish := (marked.drainUntilWriteSettles fuel).calmly_finishStoppedTriggerIfIdle hand
  refine ⟨hdrained.trans hfinish.routinely,
    hconsistent.of_mandate (mandate_of_calmly hfinish), ?_, ?_⟩
  · exact Yielded.trans (Yielded.trans (.inl (mandate_of_calmly hmarked)) hyielded)
      (.inl (mandate_of_calmly hfinish))
  · rcases hend with hidle | hgone
    · exact .inl (finishStoppedTriggerIfIdle_none hand (hpath.quelled hquelled) hidle)
    · exact .inr (hfinish.gone hgone)

end SlotActor
end SerialPlatform
