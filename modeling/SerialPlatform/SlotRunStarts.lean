import SerialPlatform.SlotLeases

/-!
# Run starts

An Agent starts a Run with the consent of whoever holds the port: at once where
nobody does, otherwise after the Human who holds it approved.
-/

namespace SerialPlatform

example : (ControlState.new 1 1 {} 0).currentLease = none := by decide +kernel

theorem View.assigned_self {v : View} {activeRun : Option RunInfo}
    {runContext : Option RunContextState} {pending : Option PendingRunStartState}
    (hrun : v.activeRun = activeRun) (hcontext : v.runContext = runContext)
    (hpending : v.pendingRunStart = pending) :
    v.assigned activeRun runContext pending = v := by
  subst hrun hcontext hpending
  rfl

namespace SlotActor

variable (hand : List RxSegment) {allowed : Origin → Prop} {known : Actor → Prop}
  {actor : Actor}

/-! ## The Run of the requester -/

/-- The Run which is installed already starts on the timeline with its event. -/
theorem reaches_emitRunStarted (run : RunInfo) {runContext : Option RunContextState}
    {pending : Option PendingRunStartState} {t : SlotActor} (hknown : known run.owner)
    (hquiet : t.trigger.activeTrigger = none) :
    Reaches known allowed ((t.view hand).assigned none runContext pending)
      (((t.emitRunStarted run.owner run).view hand).assigned (some run) (startContext run)
        pending) := by
  obtain ⟨event, his, hevent, hnoted⟩ := t.view_emitEvent hand .runStarted (some run.owner)
    none (some run.id) [("run", .run run)]
  have hstart := Start.startRun (v := (t.view hand).assigned none runContext pending) hknown
    rfl hquiet his.kind his.actor his.runId hevent.assigned
  exact .head (.start hstart) hnoted.assigned.calmly.routinely.reaches

theorem installRun_view (label : String) (metadata : JsonMap) (eventsBeforeStart : ℕ)
    (s : SlotActor) :
    ((s.installRun actor label metadata eventsBeforeStart).1.view hand) =
      (s.view hand).assigned (some (s.installRun actor label metadata eventsBeforeStart).2)
        (startContext (s.installRun actor label metadata eventsBeforeStart).2)
        s.authority.pendingRunStart := rfl

/-! ## Asking -/

section Asking

variable (requestId : Uuid) (label : String) (metadata : JsonMap) (ttlMs : ℕ)

/-- The event about an approval says which one. -/
theorem approval_of_own {event : TimelineEvent} {approval : PendingRunStartApproval}
    (hmetadata : event.metadata = approvalMetadata approval) :
    event.approval = some approval :=
  approval_of_metadata (hmetadata.trans (List.append_nil _).symm)

theorem advances_askRunStart {current : ControlLease} (now : ℕ) (wallNow : ℤ)
    {s : SlotActor} (h : s.Consistent known) (hknown : known actor)
    (hpending : s.authority.pendingRunStart = none)
    (hlease : s.authority.control.currentLease = some current)
    (hkind : current.owner.kind = .human) :
    Advances hand allowed known s
      (s.askRunStart actor requestId label metadata ttlMs current now wallNow).1 := by
  unfold askRunStart
  extract_lets timeout expires approval deadline _ asked
  obtain ⟨event, his, hevent, hnoted⟩ := asked.view_emitEvent hand .runStartRequested
    (some actor) none (asked.authority.activeRun.map RunInfo.id) (approvalMetadata approval)
  have hfirst : (s.view hand).IsEvent event :=
    ⟨hevent.direction, hevent.data, hevent.next.seq, hevent.next.offsets, hevent.next.port,
      hevent.next.epoch⟩
  have hstep : Arrange (s.view hand) ((asked.view hand).emit event) :=
    .askApproval (v := s.view hand) hpending his.kind (approval_of_own his.metadata) hfirst
  have hasked : asked.Consistent known :=
    Mandate.Consistent.asked h hknown hlease rfl hkind rfl rfl rfl rfl
  exact ⟨.head (.arrange hstep) hnoted.calmly.routinely.reaches,
    hasked.of_mandate (mandate_emitInner asked)⟩

/-- An idle port is granted with its Run at once. -/
theorem advances_grantRunStart {control : ControlState} {lease : ControlLease}
    (wallNow : ℤ) {s : SlotActor} (h : (s.setControl control).Consistent known)
    (hknown : known actor) (hlease : control.currentLease = some lease)
    (howner : lease.owner = actor) (hrun : s.authority.activeRun = none)
    (hquiet : s.trigger.activeTrigger = none)
    (hpending : s.authority.pendingRunStart = none) :
    Advances hand allowed known s
      (s.grantRunStart actor requestId label metadata ttlMs control lease wallNow).1 := by
  unfold grantRunStart
  extract_lets installed run granted started approval finished
  have hset := s.routinely_setControl hand control
  have howned : run.owner = actor := rfl
  have hview : installed.1.view hand =
      ((s.setControl control).view hand).assigned (some run) (startContext run) none := by
    rw [← hpending]
    rfl
  -- the grant is announced before the Run starts
  have hgrant := calmly_assigned hand controlGranted_isPlain (some lease.owner) none
    (installed.1.authority.activeRun.map RunInfo.id) [("lease", .lease lease)] none
    s.authority.runContext none installed.1
  have hbefore : (installed.1.view hand).assigned none s.authority.runContext none =
      (s.setControl control).view hand := by
    have hself : ((s.setControl control).view hand).assigned none s.authority.runContext none =
        (s.setControl control).view hand := View.assigned_self hrun rfl hpending
    rw [hview]
    exact hself
  rw [hbefore] at hgrant
  have hgranted : Calmly (installed.1.view hand) (granted.view hand) :=
    calmly_emitControlGranted hand lease installed.1
  have hidle : granted.trigger.activeTrigger = none :=
    (hgranted.routinely.rests (v := installed.1.view hand)).trigger hquiet
  have hstart : Reaches known allowed
      ((granted.view hand).assigned none s.authority.runContext none)
      ((started.view hand).assigned (some run) (startContext run) none) :=
    reaches_emitRunStarted hand run hknown hidle
  have hinstalled : installed.1.mandate = (s.setControl control).mandate.started run
      (startContext run) := by
    rw [← mandate_view hand, hview]
    have hnone : (s.setControl control).mandate.pendingRunStart = none := hpending
    simp only [Mandate.started, ← hnone]
    rfl
  have hstarted : started.mandate = installed.1.mandate :=
    (mandate_emitInner granted).trans hgranted.mandate_eq
  have hafter : (started.view hand).assigned (some run) (startContext run) none =
      started.view hand := by
    have hsame := hstarted.trans hinstalled
    exact View.assigned_self (congrArg Mandate.activeRun hsame)
      (congrArg Mandate.runContext hsame) ((congrArg Mandate.pendingRunStart hsame).trans hpending)
  obtain ⟨event, his, hevent, hnoted⟩ := started.view_emitEvent hand .runStartApproved
    (some actor) none (started.authority.activeRun.map RunInfo.id)
    (approvalMetadata approval ++ [("run", .run run)])
  have hnone : (started.view hand).pendingRunStart = none :=
    (congrArg Mandate.pendingRunStart (hstarted.trans hinstalled)).trans hpending
  have hstep := Arrange.grantAtOnce hnone his.kind (approval_of_metadata his.metadata) rfl
    hevent
  rw [hafter] at hstart
  have hpath : Reaches known allowed (s.view hand) (started.view hand) :=
    ((hset.trans hgrant.routinely).reaches).trans hstart
  refine ⟨hpath.trans (.head (.arrange hstep) hnoted.calmly.routinely.reaches), ?_⟩
  refine Consistent.of_mandate (s := installed.1) ?_
    ((mandate_emitInner started).trans hstarted)
  unfold Consistent
  rw [hinstalled]
  exact consistent_started h hknown hlease (congrArg Actor.id howner)

theorem checkRequestRunStart_ok {s : SlotActor}
    (hcheck : s.checkRequestRunStart actor = .ok ()) :
    s.port.port.isSome = true ∧ s.trigger.activeTrigger = none ∧
      s.authority.activeRun = none := by
  unfold checkRequestRunStart at hcheck
  obtain ⟨-, hcheck⟩ := ensure_bind hcheck
  obtain ⟨-, hcheck⟩ := ensure_bind hcheck
  obtain ⟨hport, hcheck⟩ := ensure_bind hcheck
  obtain ⟨hquiet, hcheck⟩ := ensure_bind hcheck
  exact ⟨hport, Option.isNone_iff_eq_none.mp hquiet,
    Option.isNone_iff_eq_none.mp (ensure_ok hcheck)⟩

theorem advances_executeRequestRunStart {s : SlotActor} (h : s.Consistent known)
    (hknown : known actor) :
    Advances hand allowed known s
      (s.executeRequestRunStart actor requestId label metadata ttlMs).1 := by
  unfold executeRequestRunStart
  cases hcheck : s.checkRequestRunStart actor with
  | error error => exact .silent h rfl
  | ok _ =>
      obtain ⟨hport, hquiet, hrun⟩ := checkRequestRunStart_ok hcheck
      cases hpending : s.authority.pendingRunStart with
      | some pending =>
          simp only [answerPendingRunStart]
          split_ifs <;> exact .silent h rfl
      | none =>
          simp only
          have hasked : s.ask.Consistent known := h
          cases hlease : s.ask.authority.control.currentLease with
          | none =>
              simp only
              cases hgrant : (s.ask.authority.control.grantIfIdle actor ttlMs
                  s.ask.answer.wall s.ask.now s.ask.answer.uuid).2 with
              | error error => exact .silent h rfl
              | ok lease =>
                  obtain ⟨hidle, howner, hnew, hcontrol⟩ := grantIfIdle_ok hgrant
                  rw [hcontrol]
                  have hgranted := consistent_granted ttlMs s.ask.now s.ask.answer.wall
                    s.ask.answer.uuid hasked hknown hport hidle
                  have hcurrent : (s.ask.authority.control.grant actor ttlMs
                      s.ask.answer.wall s.ask.now s.ask.answer.uuid).1.currentLease =
                        some lease := by
                    rw [hnew]
                    rfl
                  exact .asked (advances_grantRunStart hand requestId label metadata ttlMs
                    s.ask.answer.wall hgranted hknown hcurrent howner hrun hquiet hpending)
          | some current =>
              simp only
              split_ifs with hkind
              · exact .asked (advances_askRunStart hand requestId label metadata ttlMs
                  s.ask.now s.ask.answer.wall hasked hknown hpending hlease hkind)
              · exact .silent h rfl

end Asking

/-! ## Deciding -/

section Deciding

variable {approvalId : Uuid}

theorem findPendingRunStart_ok {approval : PendingRunStartApproval} {s : SlotActor}
    (hfound : s.findPendingRunStart approvalId = .ok approval) :
    ∃ pending, s.authority.pendingRunStart = some pending ∧ pending.approval = approval := by
  unfold findPendingRunStart at hfound
  cases hpending : s.authority.pendingRunStart with
  | none =>
      rw [hpending] at hfound
      cases hfound
  | some pending =>
      simp only [hpending] at hfound
      split_ifs at hfound
      exact ⟨pending, rfl, Except.ok.inj hfound⟩

theorem advances_cancelPendingRunStart (reason : String) {s : SlotActor}
    (h : s.Consistent known) : Advances hand allowed known s (s.cancelPendingRunStart reason) :=
  .of_routinely (s.routinely_cancelPendingRunStart hand reason)
    (consistent_cancelPendingRunStart reason h)

/-- A decision of one of the parties ends the approval. -/
theorem advances_closeRunStart {kind : EventKind} {pending : PendingRunStartState}
    {result : CommandResult} {s : SlotActor} (h : s.Consistent known)
    (hpending : s.authority.pendingRunStart = some pending) (hkind : kind.endsApproval) :
    Advances hand allowed known s (s.closeRunStart kind pending.approval actor result).1 := by
  unfold closeRunStart
  extract_lets _ opened closed
  have hview : closed.view hand = { s.view hand with pendingRunStart := none } :=
    view_cacheRunStartTerminal hand opened pending.approval result
  have hpath := routinely_closeApproval hand hpending hview hkind (some actor) none []
  refine .of_routinely hpath ?_
  have hopened : opened.Consistent known := Mandate.Consistent.withoutPending h
  have hclosed : closed.Consistent known :=
    hopened.of_mandate (mandate_cacheRunStartTerminal _ _ _)
  exact hclosed.of_mandate (mandate_emitInner closed)

/-- The lease moves to the requester, and its Run starts. -/
theorem advances_approveRunStart (actor : Actor) (revoked : ControlLease)
    {pending : PendingRunStartState} {control : ControlState} {lease : ControlLease}
    {s : SlotActor} (h : s.Consistent known)
    (hpending : s.authority.pendingRunStart = some pending)
    (hgranted : s.mandate.Granted control lease)
    (howner : lease.owner = pending.approval.requester)
    (hport : s.port.port.isSome = true) (hquiet : s.trigger.activeTrigger = none)
    (hrun : s.authority.activeRun = none) :
    Advances hand allowed known s
      ((s.setControl control).approveRunStart actor pending.approval revoked lease).1 := by
  obtain ⟨hknown, -, -, held, -, happrover, hkind, -⟩ :=
    Mandate.Consistent.pending h pending hpending
  unfold approveRunStart
  extract_lets _ opened installed run granted started result cached
  have hset := s.routinely_setControl hand control
  have hleased : opened.Consistent known :=
    Mandate.Consistent.granted (Mandate.Consistent.withoutPending h)
      ⟨hgranted.current, hgranted.generation, hgranted.epoch, hgranted.leaseGeneration,
        hgranted.leaseEpoch⟩ (howner.symm ▸ hknown) hport hrun rfl
  have hbefore : (installed.1.view hand).assigned none s.authority.runContext (some pending) =
      (s.setControl control).view hand := by
    have hself : ((s.setControl control).view hand).assigned none s.authority.runContext
        (some pending) = (s.setControl control).view hand :=
      View.assigned_self hrun rfl hpending
    exact hself
  -- the lease changes hands on the timeline before the Run starts
  have hrevoke := calmly_assigned hand controlRevoked_isPlain (some actor) none
    (installed.1.authority.activeRun.map RunInfo.id) [("lease", .lease revoked)] none
    s.authority.runContext (some pending) installed.1
  have hgrant := calmly_assigned hand controlGranted_isPlain (some lease.owner) none
    ((installed.1.emitLeaseRevoked actor revoked).authority.activeRun.map RunInfo.id)
    [("lease", .lease lease)] none s.authority.runContext (some pending)
    (installed.1.emitLeaseRevoked actor revoked)
  rw [hbefore] at hrevoke
  have hcalm : Calmly (installed.1.view hand) (granted.view hand) :=
    (calmly_emit hand controlRevoked_isPlain (some actor) none [("lease", .lease revoked)]
      installed.1).trans (calmly_emitControlGranted hand lease _)
  have hidle : granted.trigger.activeTrigger = none :=
    (hcalm.routinely.rests (v := installed.1.view hand)).trigger hquiet
  have hstart : Reaches known allowed
      ((granted.view hand).assigned none s.authority.runContext (some pending))
      ((started.view hand).assigned (some run) (startContext run) (some pending)) :=
    reaches_emitRunStarted hand run hknown hidle
  have hinstalled : installed.1.mandate = opened.mandate.started run (startContext run) := rfl
  have hstarted : started.mandate = installed.1.mandate :=
    (mandate_emitInner granted).trans hcalm.mandate_eq
  have hcached : cached.view hand = started.view hand :=
    view_cacheRunStartTerminal hand started pending.approval result
  obtain ⟨event, his, hevent, hnoted⟩ := cached.view_emitEvent hand .runStartApproved
    (some actor) none (some run.id) (approvalMetadata pending.approval ++ [("run", .run run)])
  rw [hcached] at hevent hnoted
  have hself : (started.view hand).assigned (some run) (startContext run) none =
      started.view hand := by
    have hsame := hstarted.trans hinstalled
    exact View.assigned_self (congrArg Mandate.activeRun hsame)
      (congrArg Mandate.runContext hsame) (congrArg Mandate.pendingRunStart hsame)
  have hstep : Arrange
      ((started.view hand).assigned (some run) (startContext run) (some pending))
      (((started.view hand).assigned (some run) (startContext run) none).emit event) :=
    .approve rfl his.kind (approval_of_metadata his.metadata) (happrover ▸ hkind)
      hevent.assigned
  rw [hself] at hstep
  refine ⟨(((hset.trans (hrevoke.trans hgrant).routinely).reaches).trans hstart).trans
    (.head (.arrange hstep) hnoted.calmly.routinely.reaches), ?_⟩
  refine Consistent.of_mandate (s := installed.1) ?_
    ((mandate_emitInner cached).trans ((mandate_cacheRunStartTerminal _ _ _).trans hstarted))
  unfold Consistent
  rw [hinstalled]
  exact consistent_started hleased hknown hgranted.current (congrArg Actor.id howner)

/-- Why an approval can be granted. -/
theorem runStartObstacle_none {approval : PendingRunStartApproval} {s : SlotActor}
    (hnone : s.runStartObstacle approval = none) :
    s.port.port.isSome = true ∧ s.trigger.activeTrigger = none ∧
      s.authority.activeRun = none := by
  unfold runStartObstacle at hnone
  split_ifs at hnone with hport _ htrigger hrun
  exact ⟨Option.isSome_iff_ne_none.mpr fun h => hport (Option.isNone_iff_eq_none.mpr h),
    Option.not_isSome_iff_eq_none.mp htrigger, Option.not_isSome_iff_eq_none.mp hrun⟩

theorem transferExact_ok {control : ControlState} {expectedOwnerId : String}
    {expectedControlId : Uuid} {expectedFence ttlMs now : ℕ} {wall : ℤ} {freshId : Uuid}
    {revoked lease : ControlLease}
    (hmoved : (control.transferExact expectedOwnerId expectedControlId expectedFence actor
      ttlMs wall now freshId).2 = .ok (revoked, lease)) :
    lease.owner = actor ∧
      lease = ({ control with current := none }.grant actor ttlMs wall now freshId).2 ∧
      (control.transferExact expectedOwnerId expectedControlId expectedFence actor ttlMs
        wall now freshId).1 =
          ({ control with current := none }.grant actor ttlMs wall now freshId).1 := by
  unfold ControlState.transferExact at hmoved ⊢
  cases hvalid : control.validate expectedOwnerId expectedControlId expectedFence now with
  | error error =>
      rw [hvalid] at hmoved
      cases hmoved
  | ok held =>
      rw [hvalid] at hmoved
      have hpair := Except.ok.inj hmoved
      obtain rfl := (Prod.ext_iff.mp hpair).2
      exact ⟨rfl, rfl, rfl⟩

theorem checkDecideRunStart_ok {approval : PendingRunStartApproval} {s : SlotActor}
    (hcheck : s.checkDecideRunStart actor approvalId = .ok approval) :
    ∃ pending, s.authority.pendingRunStart = some pending ∧ pending.approval = approval := by
  unfold checkDecideRunStart at hcheck
  obtain ⟨-, hcheck⟩ := ensure_bind hcheck
  obtain ⟨found, hfound, hcheck⟩ := Except.exists_of_bind_ok hcheck
  obtain ⟨-, hcheck⟩ := ensure_bind hcheck
  obtain rfl := Except.ok.inj hcheck
  exact findPendingRunStart_ok hfound

theorem advances_executeDecideRunStart {decision : RunStartDecision} {s : SlotActor}
    (h : s.Consistent known) :
    Advances hand allowed known s (s.executeDecideRunStart actor approvalId decision).1 := by
  unfold executeDecideRunStart
  cases hcheck : s.checkDecideRunStart actor approvalId with
  | error error => exact .silent h rfl
  | ok approval =>
      obtain ⟨pending, hpending, rfl⟩ := checkDecideRunStart_ok hcheck
      cases decision with
      | deny => exact advances_closeRunStart hand h hpending (.inl rfl)
      | approve =>
          simp only
          cases hobstacle : s.runStartObstacle pending.approval with
          | some obstacle => exact advances_cancelPendingRunStart hand _ h
          | none =>
              obtain ⟨hport, hquiet, hrun⟩ := runStartObstacle_none hobstacle
              simp only
              have hasked : s.ask.Consistent known := h
              split
              · exact .asked (advances_cancelPendingRunStart hand
                  "approval fence became stale" hasked)
              · rename_i revoked lease hmoved
                obtain ⟨howner, hnew, hcontrol⟩ := transferExact_ok hmoved
                have hgranted := Mandate.Granted.of_grant (m := s.mandate)
                  (c := { s.ask.authority.control with current := none })
                  (Mandate.Consistent.generation h) (Mandate.Consistent.epoch h)
                  pending.approval.requester pending.approval.controlTtlMs
                  s.ask.answer.wall s.ask.now s.ask.answer.uuid
                rw [← hnew, ← hcontrol] at hgranted
                exact .asked (advances_approveRunStart hand actor revoked hasked hpending
                  hgranted howner hport hquiet hrun)

theorem advances_executeCancelRunStart {s : SlotActor} (h : s.Consistent known) :
    Advances hand allowed known s (s.executeCancelRunStart actor approvalId).1 := by
  unfold executeCancelRunStart
  cases hcheck : s.checkCancelRunStart actor approvalId with
  | error error => exact .silent h rfl
  | ok approval =>
      unfold checkCancelRunStart at hcheck
      obtain ⟨found, hfound, hcheck⟩ := Except.exists_of_bind_ok hcheck
      obtain ⟨-, hcheck⟩ := ensure_bind hcheck
      obtain rfl := Except.ok.inj hcheck
      obtain ⟨pending, hpending, rfl⟩ := findPendingRunStart_ok hfound
      exact advances_closeRunStart hand h hpending (.inr (.inr rfl))

end Deciding

end SlotActor
end SerialPlatform
