import SerialPlatform.ControlFencing
import SerialPlatform.SlotArms

/-!
# Requests which do not touch the wire

Requests about control, Runs and approvals take steps of the actor and leave a
consistent mandate.
-/

namespace SerialPlatform

example : ControlLimits.bounded {} = {} := by decide +kernel

/-! ## Steps beside a Run and an approval -/

namespace View

/-- The view with another Run, context and pending approval. -/
def assigned (v : View) (activeRun : Option RunInfo) (runContext : Option RunContextState)
    (pending : Option PendingRunStartState) : View :=
  { v with
    activeRun := activeRun
    runContext := runContext
    pendingRunStart := pending }

variable {activeRun : Option RunInfo} {runContext : Option RunContextState}
  {pending : Option PendingRunStartState}

theorem IsEvent.assigned {v : View} {event : TimelineEvent} (h : v.IsEvent event) :
    (v.assigned activeRun runContext pending).IsEvent event :=
  ⟨h.direction, h.data, h.next.seq, h.next.offsets, h.next.port, h.next.epoch⟩

theorem Noted.assigned {v w : View} (h : Noted v w) :
    Noted (v.assigned activeRun runContext pending)
      (w.assigned activeRun runContext pending) := by
  cases h with
  | nil => exact .nil
  | note hnote hnext =>
      exact .note hnote ⟨hnext.seq, hnext.offsets, hnext.port, hnext.epoch⟩

end View

namespace SlotActor

variable (hand : List RxSegment) (allowed : Origin → Prop) {known : Actor → Prop}

/-- What a step of the actor does between two consistent mandates. -/
structure Advances (known : Actor → Prop) (s t : SlotActor) : Prop where
  path : Reaches known allowed (s.view hand) (t.view hand)
  consistent : t.Consistent known

variable {hand allowed}

namespace Advances

theorem silent {s t : SlotActor} (h : s.Consistent known)
    (hview : t.view hand = s.view hand) : Advances hand allowed known s t := by
  refine ⟨?_, h.of_mandate ?_⟩
  · rw [hview]
  · exact (congrArg View.mandate hview : (t.view hand).mandate = (s.view hand).mandate)

theorem trans {s t u : SlotActor} (hst : Advances hand allowed known s t)
    (htu : Advances hand allowed known t u) : Advances hand allowed known s u :=
  ⟨hst.path.trans htu.path, htu.consistent⟩

/-- Time passes before the step. -/
theorem asked {s t : SlotActor} (h : Advances hand allowed known s.ask t) :
    Advances hand allowed known s t := ⟨h.path, h.consistent⟩

theorem of_routinely {s t : SlotActor} (hpath : Routinely (s.view hand) (t.view hand))
    (h : t.Consistent known) : Advances hand allowed known s t := ⟨hpath.reaches, h⟩

theorem of_calmly {s t : SlotActor} (h : s.Consistent known)
    (hpath : Calmly (s.view hand) (t.view hand)) : Advances hand allowed known s t :=
  ⟨hpath.routinely.reaches,
    h.of_mandate (hpath.mandate_eq : (t.view hand).mandate = (s.view hand).mandate)⟩

end Advances

variable (hand)

theorem controlGranted_isPlain : EventKind.isPlain .controlGranted = true := rfl

theorem controlRevoked_isPlain : EventKind.isPlain .controlRevoked = true := rfl

theorem controlReleased_isPlain : EventKind.isPlain .controlReleased = true := rfl

/-- A plain event beside another Run and approval. -/
theorem calmly_assigned {kind : EventKind} (hplain : kind.isPlain = true)
    (actor : Option Actor) (operationId runId : Option Uuid) (metadata : Metadata)
    (activeRun : Option RunInfo) (runContext : Option RunContextState)
    (pending : Option PendingRunStartState) (s : SlotActor) :
    Calmly ((s.view hand).assigned activeRun runContext pending)
      (((s.emitInner kind .none [] actor operationId runId metadata).view hand).assigned
        activeRun runContext pending) := by
  obtain ⟨event, his, hevent, hnoted⟩ :=
    s.view_emitEvent hand kind actor operationId runId metadata
  have hkind : event.kind.isPlain = true := by
    rw [his.kind]
    exact hplain
  exact (Calm.note hkind hevent.assigned).calmly.trans hnoted.assigned.calmly

/-! ## Acquiring -/

section Acquiring

variable {actor : Actor}

theorem currentLease_idle {control : ControlState} (hcurrent : control.currentLease = none) :
    control.current = none := by
  cases hheld : control.current with
  | none => rfl
  | some active =>
      rw [ControlState.currentLease, hheld] at hcurrent
      cases hcurrent

theorem checkAcquire_ok {mode : ControlMode} {s : SlotActor}
    (hcheck : s.checkAcquire actor mode = .ok ()) : s.port.port.isSome = true := by
  unfold checkAcquire at hcheck
  exact (ensure_bind hcheck).1

theorem advances_takeOver (actor : Actor) (revoked : ControlLease)
    {granted : ControlLease} {control : ControlState} {s : SlotActor} (h : s.Consistent known)
    (hgranted : s.mandate.Granted control granted) (hknown : known granted.owner)
    (hport : s.port.port.isSome = true) :
    Advances hand allowed known s ((s.setControl control).takeOver actor revoked granted) := by
  unfold takeOver
  extract_lets cancelled owned loosened aborted
  have hset := s.routinely_setControl hand control
  have hcancelled := (s.setControl control).routinely_cancelPendingRunStart hand
    "Human control holder changed"
  have hloosened : Calmly (cancelled.view hand) (loosened.view hand) := by
    simp only [loosened]
    split_ifs
    · exact cancelled.calmly_requestTriggerStop hand rfl (by decide)
    · exact .refl
  have haborted := loosened.routinely_abortRun hand "human takeover" (some revoked.owner)
  have hrevoked := aborted.calmly_emit hand controlRevoked_isPlain (some actor) none
    [("lease", .lease revoked)]
  have hannounced := calmly_emitControlGranted hand granted
    (aborted.emitLeaseRevoked actor revoked)
  have hmandate : aborted.mandate = s.mandate.withoutPending.withoutRun.withControl control := by
    simp only [aborted]
    rw [mandate_abortRun, mandate_of_calmly hloosened]
    simp only [cancelled]
    rw [mandate_cancelPendingRunStart]
    rfl
  have hconsistent : aborted.Consistent known := by
    unfold Consistent
    rw [hmandate]
    exact Mandate.Consistent.granted (Mandate.Consistent.withoutPending h).withoutRun
      ⟨hgranted.current, hgranted.generation, hgranted.epoch, hgranted.leaseGeneration,
        hgranted.leaseEpoch⟩ hknown hport rfl rfl
  have hpath := ((hset.trans hcancelled).trans hloosened.routinely).trans haborted
  exact (Advances.of_routinely hpath hconsistent).trans
    (.of_calmly hconsistent (hrevoked.trans hannounced))

theorem advances_executeAcquire {mode : ControlMode} {ttlMs : ℕ} {s : SlotActor}
    (h : s.Consistent known) (hknown : known actor) :
    Advances hand allowed known s (s.executeAcquire actor mode ttlMs).1 := by
  unfold executeAcquire
  cases hcheck : s.checkAcquire actor mode with
  | error error => exact .silent h rfl
  | ok _ =>
      have hport := checkAcquire_ok hcheck
      simp only
      have hasked : s.ask.Consistent known := h
      unfold ControlState.acquire
      cases hcurrent : s.ask.authority.control.current with
      | none =>
          simp only
          have hgranted := consistent_granted ttlMs s.ask.now s.ask.answer.wall
            s.ask.answer.uuid hasked hknown hport hcurrent
          have hset := s.ask.routinely_setControl hand
            (s.ask.authority.control.grant actor ttlMs s.ask.answer.wall s.ask.now
              s.ask.answer.uuid).1
          exact (Advances.of_routinely (s := s) hset hgranted).trans
            (.of_calmly hgranted (calmly_emitControlGranted hand _ _))
      | some current =>
          simp only
          split_ifs
          · exact .silent h rfl
          · exact .silent h rfl
          · have hgranted := Mandate.Granted.of_grant (m := s.mandate)
              (c := { s.ask.authority.control with current := none })
              (Mandate.Consistent.generation h) (Mandate.Consistent.epoch h) actor ttlMs
              s.ask.answer.wall s.ask.now s.ask.answer.uuid
            exact .asked (s.ask.advances_takeOver hand actor current.lease hasked hgranted
              hknown hport)

theorem advances_executeRenew {controlId : Uuid} {fence ttlMs : ℕ} {s : SlotActor}
    (h : s.Consistent known) :
    Advances hand allowed known s (s.executeRenew actor controlId fence ttlMs).1 := by
  unfold executeRenew
  extract_lets asked renewed
  cases hrenewed : renewed.2 with
  | error error => exact .silent h rfl
  | ok lease =>
      simp only [renewed] at hrenewed
      unfold ControlState.renew at hrenewed
      cases hvalid : asked.authority.control.validate actor.id controlId fence asked.now with
      | error error =>
          rw [hvalid] at hrenewed
          cases hrenewed
      | ok held =>
          obtain ⟨active, hactive, rfl, -⟩ := ControlState.validate_eq_ok_iff.mp hvalid
          have hset := asked.routinely_setControl hand renewed.1
          refine ⟨hset.reaches, ?_⟩
          have hlease : s.authority.control.currentLease = some active.lease := by
            have hheld : s.authority.control.current = some active := hactive
            rw [ControlState.currentLease, hheld]
            rfl
          have hcontrol : renewed.1 = { asked.authority.control with
              current := some {
                lease := { active.lease with
                  expiresWallTimeNs := asked.authority.control.wallExpiry asked.answer.wall
                    (asked.authority.control.clampTtl ttlMs) }
                deadline := asked.authority.control.monotonicExpiry asked.now
                  (asked.authority.control.clampTtl ttlMs) } } := by
            simp only [renewed, ControlState.renew, hvalid]
          show (s.mandate.withControl renewed.1).Consistent known
          rw [hcontrol]
          exact Mandate.Consistent.renewed h hlease rfl rfl rfl rfl

theorem advances_executeRelease {controlId : Uuid} {fence : ℕ} {s : SlotActor}
    (h : s.Consistent known) :
    Advances hand allowed known s (s.executeRelease actor controlId fence).1 := by
  unfold executeRelease
  extract_lets asked released held cancelled stopped aborted
  cases hreleased : released.2 with
  | error error => exact .silent h rfl
  | ok outcome =>
      have hcontrol : released.1 = { asked.authority.control with current := none } := by
        simp only [released] at hreleased ⊢
        unfold ControlState.release at hreleased ⊢
        cases hvalid : asked.authority.control.validate actor.id controlId fence asked.now with
        | error error =>
            rw [hvalid] at hreleased
            cases hreleased
        | ok lease => rfl
      have hset := asked.routinely_setControl hand released.1
      have hcancelled := held.routinely_cancelPendingRunStart hand
        "Human control holder released control"
      have hstopped : Calmly (cancelled.view hand) (stopped.view hand) :=
        cancelled.calmly_requestTriggerStop hand rfl (by decide)
      have haborted := stopped.routinely_abortRun hand "control released" (some actor)
      have hmandate : aborted.mandate = s.mandate.withdrawn
          { s.mandate.standing.control with current := none } := by
        simp only [aborted]
        rw [mandate_abortRun, mandate_of_calmly hstopped]
        simp only [cancelled]
        rw [mandate_cancelPendingRunStart]
        simp only [held]
        rw [mandate_setControl, hcontrol]
        rfl
      have hconsistent : aborted.Consistent known := by
        unfold Consistent
        rw [hmandate]
        exact Mandate.Consistent.withdrawn h
      have hpath := ((hset.trans hcancelled).trans hstopped.routinely).trans haborted
      have hemitted := calmly_emitRelease hand controlReleased_isPlain outcome aborted
      exact ⟨(Routinely.reaches hpath).trans hemitted.routinely.reaches,
        hconsistent.of_mandate (mandate_of_calmly hemitted)⟩

end Acquiring

/-! ## Runs -/

section Runs

variable {actor : Actor} {controlId : Uuid} {fence : ℕ}

/-- An owner of the current lease which the check found. -/
theorem lease_of_validate {control : ControlState} {actorId : String} {now : ℕ}
    {lease : ControlLease} (hvalid : control.validate actorId controlId fence now = .ok lease) :
    control.currentLease = some lease ∧ lease.owner.id = actorId := by
  obtain ⟨active, hactive, rfl, -, -, -, -, howner, -⟩ :=
    ControlState.validate_eq_ok_iff.mp hvalid
  rw [ControlState.currentLease, hactive]
  exact ⟨rfl, howner⟩

theorem liftControl_ok {α : Type} {x : Except ControlError α} {a : α}
    (h : liftControl x = .ok a) : x = .ok a := by
  cases x with
  | error error => cases h
  | ok value => exact congrArg _ (Except.ok.inj h)

theorem discard_ok {ε α : Type} {x : Except ε α} (h : discard x = .ok ()) :
    ∃ a, x = .ok a := by
  cases x with
  | error error => cases h
  | ok value => exact ⟨value, rfl⟩

theorem checkStartRun_ok {s : SlotActor}
    (hcheck : s.checkStartRun actor controlId fence = .ok ()) :
    actor.kind ≠ .agent ∧ s.trigger.activeTrigger = none ∧
      s.authority.activeRun = none ∧
      ∃ lease, s.authority.control.currentLease = some lease ∧ lease.owner.id = actor.id := by
  unfold checkStartRun at hcheck
  obtain ⟨-, hcheck⟩ := ensure_bind hcheck
  obtain ⟨hkind, hcheck⟩ := ensure_bind hcheck
  obtain ⟨hquiet, hcheck⟩ := ensure_bind hcheck
  obtain ⟨u, hvalid, hcheck⟩ := Except.exists_of_bind_ok hcheck
  obtain ⟨lease, hlease⟩ := discard_ok hvalid
  exact ⟨of_decide_eq_true hkind, Option.isNone_iff_eq_none.mp hquiet,
    Option.isNone_iff_eq_none.mp (ensure_ok hcheck), lease,
    lease_of_validate (liftControl_ok hlease)⟩

/-- The context with which a Run starts. -/
def startContext (run : RunInfo) : Option RunContextState :=
  if run.owner.kind = .agent then some (freshRunContext run.id) else none

theorem consistent_started {m : Mandate} {run : RunInfo} {lease : ControlLease}
    (h : m.Consistent known) (hknown : known run.owner)
    (hlease : m.standing.control.currentLease = some lease)
    (howner : lease.owner.id = run.owner.id) :
    (m.started run (startContext run)).Consistent known := by
  refine h.started hknown hlease howner (fun hagent => ?_) (fun state hstate => ?_)
  · rw [startContext, if_pos hagent]
    rfl
  · unfold startContext at hstate
    split_ifs at hstate
    obtain rfl := Option.some.inj hstate
    rfl

/-- A Run starts under the lease of its owner. -/
theorem advances_startRun (run : RunInfo) (operationId : Option Uuid) (metadata : Metadata)
    {lease : ControlLease} {s : SlotActor} (h : s.Consistent known)
    (hknown : known run.owner) (hrun : s.authority.activeRun = none)
    (hquiet : s.trigger.activeTrigger = none)
    (hlease : s.authority.control.currentLease = some lease)
    (howner : lease.owner.id = run.owner.id) :
    Advances hand allowed known s
      ((({ s with
        authority.activeRun := some run
        authority.runContext := startContext run } :
        SlotActor)).emitInner .runStarted .none [] (some run.owner) operationId (some run.id)
          metadata) := by
  have hstarted := ({ s with
    authority.activeRun := some run
    authority.runContext := startContext run } :
      SlotActor).view_emitEvent hand .runStarted (some run.owner) operationId (some run.id)
        metadata
  obtain ⟨event, his, hevent, hnoted⟩ := hstarted
  have hfirst : (s.view hand).IsEvent event :=
    ⟨hevent.direction, hevent.data, hevent.next.seq, hevent.next.offsets, hevent.next.port,
      hevent.next.epoch⟩
  have hstart := Start.startRun (v := s.view hand) hknown hrun hquiet his.kind his.actor
    his.runId hfirst
  refine ⟨.head (.start hstart) hnoted.calmly.routinely.reaches, ?_⟩
  refine Consistent.of_mandate (s := ({ s with
    authority.activeRun := some run
    authority.runContext := startContext run } : SlotActor)) ?_ (mandate_emitInner _)
  exact consistent_started h hknown hlease howner

theorem advances_executeStartRun {label : String} {metadata : JsonMap} {s : SlotActor}
    (h : s.Consistent known) (hknown : known actor) :
    Advances hand allowed known s (s.executeStartRun actor controlId fence label metadata).1 := by
  unfold executeStartRun
  extract_lets asked run started
  cases hcheck : asked.checkStartRun actor controlId fence with
  | error error => exact .silent h rfl
  | ok _ =>
      obtain ⟨hkind, hquiet, hrun, lease, hlease, howner⟩ := checkStartRun_ok hcheck
      have hstart : Advances hand allowed known s.ask _ :=
        asked.advances_startRun hand run none [("run", .run run)] h hknown hrun hquiet hlease
          howner
      rw [startContext, if_neg hkind] at hstart
      exact hstart.asked

theorem checkEndRun_ok {runId : Uuid} {active : RunInfo} {s : SlotActor}
    (hcheck : s.checkEndRun actor controlId fence runId = .ok active) :
    s.authority.activeRun = some active := by
  unfold checkEndRun at hcheck
  obtain ⟨-, hcheck⟩ := ensure_bind hcheck
  obtain ⟨u, -, hcheck⟩ := Except.exists_of_bind_ok hcheck
  cases hrun : s.authority.activeRun with
  | none =>
      rw [hrun] at hcheck
      cases hcheck
  | some run =>
      rw [hrun] at hcheck
      obtain ⟨-, hcheck⟩ := ensure_bind hcheck
      exact congrArg some (Except.ok.inj hcheck)

theorem advances_executeEndRun {runId : Uuid} {s : SlotActor} (h : s.Consistent known) :
    Advances hand allowed known s (s.executeEndRun actor controlId fence runId).1 := by
  unfold executeEndRun
  extract_lets asked stopped
  cases hcheck : asked.checkEndRun actor controlId fence runId with
  | error error => exact .silent h rfl
  | ok active =>
      have hbefore := checkEndRun_ok hcheck
      have hcalm : Calmly (s.view hand) (stopped.view hand) :=
        asked.calmly_requestTriggerStop hand rfl (by decide)
      have hmandate : stopped.mandate = s.mandate := mandate_of_calmly hcalm
      have hheld : stopped.Consistent known := h.of_mandate hmandate
      have hrun : stopped.authority.activeRun = some active :=
        (congrArg Mandate.activeRun hmandate).trans hbefore
      let ended : RunInfo :=
        { active with status := .completed, endSeq := some stopped.nextSeq }
      have hid : ended.id = active.id := rfl
      have hclosed := stopped.routinely_closeRun hand hrun
        (.inl rfl : EventKind.runEnded = .runEnded ∨ EventKind.runEnded = .runAborted) hid
        (some actor) [("run", .run ended)]
      refine ⟨(hcalm.routinely.trans hclosed).reaches, ?_⟩
      refine Consistent.of_mandate (s := ({ stopped with
        authority.activeRun := none, authority.runContext := none } : SlotActor)) ?_
        (mandate_emitInner _)
      exact Mandate.Consistent.withoutRun hheld

theorem advances_executeCheckpoint {label : String} {s : SlotActor}
    (h : s.Consistent known) :
    Advances hand allowed known s (s.executeCheckpoint actor controlId fence label).1 := by
  unfold executeCheckpoint
  extract_lets asked
  split
  · exact .silent h rfl
  · split_ifs
    · exact .silent h rfl
    · have hemit := calmly_emit hand (rfl : EventKind.isPlain .checkpoint = true) (some actor) none
        [("label", .str label)] asked
      exact .of_calmly h hemit

theorem checkAcknowledge_ok {runId : Uuid} {revision throughSeq : ℕ}
    {context : RunContextState} {s : SlotActor}
    (hcheck : s.checkAcknowledge actor runId revision throughSeq = .ok context) :
    s.authority.runContext = some context ∧ revision = context.revision ∧
      context.lastHumanCommandSeq.getD 0 ≤ throughSeq ∧
      ∃ run, s.authority.activeRun = some run ∧ run.id = runId ∧ context.runId = run.id := by
  unfold checkAcknowledge at hcheck
  obtain ⟨-, hcheck⟩ := ensure_bind hcheck
  cases hrun : s.authority.activeRun with
  | none =>
      rw [hrun] at hcheck
      cases hcheck
  | some run =>
      simp only [hrun] at hcheck
      obtain ⟨hid, hcheck⟩ := ensure_bind hcheck
      obtain ⟨-, hcheck⟩ := ensure_bind hcheck
      cases hlease : s.authority.control.currentLease with
      | none =>
          rw [hlease] at hcheck
          cases hcheck
      | some lease =>
          simp only [hlease] at hcheck
          obtain ⟨-, hcheck⟩ := ensure_bind hcheck
          obtain ⟨u, -, hcheck⟩ := Except.exists_of_bind_ok hcheck
          cases hcontext : s.authority.runContext with
          | none =>
              rw [hcontext] at hcheck
              cases hcheck
          | some held =>
              simp only [hcontext] at hcheck
              obtain ⟨hcovered, hcheck⟩ := ensure_bind hcheck
              obtain rfl := Except.ok.inj hcheck
              simp only [Bool.and_eq_true, decide_eq_true_eq] at hcovered
              have hrunId : run.id = runId := of_decide_eq_true hid
              exact ⟨rfl, hcovered.1.1.2, hcovered.1.2, run, rfl, hrunId,
                hcovered.1.1.1.trans hrunId.symm⟩

theorem advances_executeAcknowledgeRunContext {runId : Uuid} {revision throughSeq : ℕ}
    {s : SlotActor} (h : s.Consistent known) :
    Advances hand allowed known s
      (s.executeAcknowledgeRunContext actor runId revision throughSeq).1 := by
  unfold executeAcknowledgeRunContext
  extract_lets asked
  cases hcheck : asked.checkAcknowledge actor runId revision throughSeq with
  | error error => exact .silent h rfl
  | ok context =>
      obtain ⟨hcontext, rfl, hthrough, run, hrun, rfl, hid⟩ := checkAcknowledge_ok hcheck
      have hstep := Arrange.acknowledge (v := s.view hand) hrun hcontext hid hthrough
      refine ⟨.single (.arrange hstep), ?_⟩
      refine Mandate.Consistent.informed h (fun other hother => ?_)
      obtain rfl := Option.some.inj (hrun.symm.trans hother)
      exact hid

theorem advances_executeRecordCommandCapture {report : CommandCaptureReport}
    {s : SlotActor} (h : s.Consistent known) :
    Advances hand allowed known s (s.executeRecordCommandCapture actor report).1 := by
  unfold executeRecordCommandCapture
  split
  · exact .silent h rfl
  · exact .of_calmly h (calmly_emitInner hand _ rfl)

end Runs

/-! ## Triggers -/

theorem advances_executeTriggerStatus {daemonEpoch : Uuid} {generation : ℕ}
    {triggerId : Uuid} {s : SlotActor} (h : s.Consistent known) :
    Advances hand allowed known s (s.executeTriggerStatus daemonEpoch generation triggerId).1 := by
  unfold executeTriggerStatus
  extract_lets found
  cases found <;> exact .silent h rfl

theorem advances_executeCancelTrigger {actor : Actor} {controlId : Uuid} {fence : ℕ}
    {daemonEpoch : Uuid} {generation : ℕ} {triggerId : Uuid} {s : SlotActor}
    (h : s.Consistent known) :
    Advances hand allowed known s
      (s.executeCancelTrigger actor controlId fence daemonEpoch generation triggerId).1 := by
  unfold executeCancelTrigger
  extract_lets found asked stopped
  have hstopped : Advances hand allowed known s stopped :=
    .of_calmly h (asked.calmly_requestTriggerStop hand rfl (by decide))
  cases found with
  | error error => exact .silent h rfl
  | ok trigger =>
      simp only
      split_ifs
      · exact .silent h rfl
      · cases asked.checkCancelTrigger actor controlId fence trigger with
        | error error => exact .silent h rfl
        | ok _ =>
            simp only
            split <;> exact hstopped

end SlotActor
end SerialPlatform
