import SerialPlatform.SlotRoutine

/-!
# Consistent mandates

Between two turns the lease, the Run, its context and the pending approval agree:
whatever is active rests on the current lease.
-/

namespace SerialPlatform

/-- Who the actors of requests are is up to the caller. -/
structure Mandate.Consistent (known : Actor → Prop) (m : Mandate) : Prop where
  generation : m.standing.control.generation = m.standing.generation
  epoch : m.standing.control.daemonEpoch = m.standing.daemonEpoch
  lease : ∀ lease, m.standing.control.currentLease = some lease →
    known lease.owner ∧ lease.generation = m.standing.generation ∧
      lease.epoch = m.standing.daemonEpoch ∧ m.online = true
  run : ∀ run, m.activeRun = some run →
    known run.owner ∧ ∃ lease, m.standing.control.currentLease = some lease ∧
      lease.owner.id = run.owner.id
  context : ∀ run, m.activeRun = some run → run.owner.kind = .agent →
    m.runContext.isSome = true
  contextRun : ∀ context run, m.runContext = some context → m.activeRun = some run →
    context.runId = run.id
  pending : ∀ pending, m.pendingRunStart = some pending →
    known pending.approval.requester ∧
      pending.approval.generation = m.standing.generation ∧
      pending.approval.daemonEpoch = m.standing.daemonEpoch ∧
      ∃ lease, m.standing.control.currentLease = some lease ∧
        lease.owner = pending.approval.requiredApprover ∧ lease.owner.kind = .human ∧
        lease.id = pending.approval.expectedControlId ∧
        lease.fence = pending.approval.expectedFence
  paused : m.standing.administrativelyPaused = true → m.online = false

namespace Mandate

variable {known : Actor → Prop} {m : Mandate}

/-! ## What ends -/

namespace Consistent

theorem withoutRun (h : m.Consistent known) : m.withoutRun.Consistent known where
  generation := h.generation
  epoch := h.epoch
  lease := h.lease
  run _ hrun := by cases hrun
  context _ hrun := by cases hrun
  contextRun _ _ _ hrun := by cases hrun
  pending := h.pending
  paused := h.paused

theorem withoutPending (h : m.Consistent known) : m.withoutPending.Consistent known where
  generation := h.generation
  epoch := h.epoch
  lease := h.lease
  run := h.run
  context := h.context
  contextRun := h.contextRun
  pending _ hpending := by cases hpending
  paused := h.paused

/-- Without a lease there is neither a Run nor a pending approval. -/
theorem of_idle {m : Mandate} {control : ControlState} (hcurrent : control.current = none)
    (hgeneration : control.generation = m.standing.generation)
    (hepoch : control.daemonEpoch = m.standing.daemonEpoch)
    (hpaused : m.standing.administrativelyPaused = true → m.online = false) :
    (m.withdrawn control).Consistent known where
  generation := hgeneration
  epoch := hepoch
  lease lease hlease := by
    have hnone : control.currentLease = some lease := hlease
    rw [ControlState.currentLease, hcurrent] at hnone
    cases hnone
  run _ hrun := by cases hrun
  context _ hrun := by cases hrun
  contextRun _ _ _ hrun := by cases hrun
  pending _ hpending := by cases hpending
  paused := hpaused

/-- The lease is lost. -/
theorem withdrawn (h : m.Consistent known) :
    (m.withdrawn { m.standing.control with current := none }).Consistent known :=
  of_idle rfl h.generation h.epoch h.paused

theorem idle_run (h : m.Consistent known) (hidle : m.standing.control.current = none) :
    m.activeRun = none := by
  cases hrun : m.activeRun with
  | none => rfl
  | some run =>
      obtain ⟨-, lease, hlease, -⟩ := h.run run hrun
      rw [ControlState.currentLease, hidle] at hlease
      cases hlease

theorem idle_pending (h : m.Consistent known) (hidle : m.standing.control.current = none) :
    m.pendingRunStart = none := by
  cases hpending : m.pendingRunStart with
  | none => rfl
  | some pending =>
      obtain ⟨-, -, -, lease, hlease, -⟩ := h.pending pending hpending
      rw [ControlState.currentLease, hidle] at hlease
      cases hlease

end Consistent

/-! ## What begins -/

/-- A lease which was just granted. -/
structure Granted (m : Mandate) (control : ControlState) (lease : ControlLease) : Prop where
  current : control.currentLease = some lease
  generation : control.generation = m.standing.generation
  epoch : control.daemonEpoch = m.standing.daemonEpoch
  leaseGeneration : lease.generation = m.standing.generation
  leaseEpoch : lease.epoch = m.standing.daemonEpoch

theorem Granted.of_grant {c : ControlState}
    (hgeneration : c.generation = m.standing.generation)
    (hepoch : c.daemonEpoch = m.standing.daemonEpoch) (actor : Actor) (ttlMs : ℕ)
    (wall : ℤ) (now : ℕ) (freshId : Uuid) :
    m.Granted (c.grant actor ttlMs wall now freshId).1
      (c.grant actor ttlMs wall now freshId).2 :=
  ⟨rfl, hgeneration, hepoch, hgeneration, hepoch⟩

/-- A new lease comes while nothing rests on an older one. -/
theorem Consistent.granted (h : m.Consistent known) {control : ControlState}
    {lease : ControlLease} (hgranted : m.Granted control lease)
    (hknown : known lease.owner) (honline : m.online = true) (hrun : m.activeRun = none)
    (hpending : m.pendingRunStart = none) : (m.withControl control).Consistent known where
  generation := hgranted.generation
  epoch := hgranted.epoch
  lease other hother := by
    obtain rfl := Option.some.inj (hgranted.current.symm.trans hother)
    exact ⟨hknown, hgranted.leaseGeneration, hgranted.leaseEpoch, honline⟩
  run _ hother := by cases hrun.symm.trans hother
  context _ hother := by cases hrun.symm.trans hother
  contextRun _ _ _ hother := by cases hrun.symm.trans hother
  pending _ hother := by cases hpending.symm.trans hother
  paused := h.paused

/-- The mandate with a Run. -/
def started (m : Mandate) (run : RunInfo) (context : Option RunContextState) : Mandate :=
  { m with activeRun := some run, runContext := context }

theorem Consistent.started (h : m.Consistent known) {run : RunInfo}
    {context : Option RunContextState} {lease : ControlLease} (hknown : known run.owner)
    (hlease : m.standing.control.currentLease = some lease)
    (howner : lease.owner.id = run.owner.id)
    (hcontext : run.owner.kind = .agent → context.isSome = true)
    (hid : ∀ state, context = some state → state.runId = run.id) :
    (m.started run context).Consistent known where
  generation := h.generation
  epoch := h.epoch
  lease := h.lease
  run other hother := by
    obtain rfl := Option.some.inj hother
    exact ⟨hknown, lease, hlease, howner⟩
  context other hother hkind := by
    obtain rfl := Option.some.inj hother
    exact hcontext hkind
  contextRun state other hstate hother := by
    obtain rfl := Option.some.inj hother
    exact hid state hstate
  pending := h.pending
  paused := h.paused

/-- The mandate with another context of its Run. -/
def informed (m : Mandate) (context : RunContextState) : Mandate :=
  { m with runContext := some context }

theorem Consistent.informed (h : m.Consistent known) {context : RunContextState}
    (hcontext : ∀ run, m.activeRun = some run → context.runId = run.id) :
    (m.informed context).Consistent known where
  generation := h.generation
  epoch := h.epoch
  lease := h.lease
  run := h.run
  context _ _ _ := rfl
  contextRun state run hstate hrun := by
    obtain rfl := Option.some.inj hstate
    exact hcontext run hrun
  pending := h.pending
  paused := h.paused

/-- The mandate with a pending approval. -/
def asked (m : Mandate) (pending : PendingRunStartState) : Mandate :=
  { m with pendingRunStart := some pending }

theorem Consistent.asked (h : m.Consistent known) {pending : PendingRunStartState}
    {lease : ControlLease} (hknown : known pending.approval.requester)
    (hlease : m.standing.control.currentLease = some lease)
    (happrover : lease.owner = pending.approval.requiredApprover)
    (hkind : lease.owner.kind = .human)
    (hid : lease.id = pending.approval.expectedControlId)
    (hfence : lease.fence = pending.approval.expectedFence)
    (hgeneration : pending.approval.generation = m.standing.generation)
    (hepoch : pending.approval.daemonEpoch = m.standing.daemonEpoch) :
    (m.asked pending).Consistent known where
  generation := h.generation
  epoch := h.epoch
  lease := h.lease
  run := h.run
  context := h.context
  contextRun := h.contextRun
  pending other hother := by
    obtain rfl := Option.some.inj hother
    exact ⟨hknown, hgeneration, hepoch, lease, hlease, happrover, hkind, hid, hfence⟩
  paused := h.paused

/-- A renewed lease is the same lease. -/
theorem Consistent.renewed (h : m.Consistent known) {control : ControlState}
    {lease renewed : ControlLease}
    (hlease : m.standing.control.currentLease = some lease)
    (hrenewed : control.currentLease = some renewed)
    (hgeneration : control.generation = m.standing.control.generation)
    (hepoch : control.daemonEpoch = m.standing.control.daemonEpoch)
    (hsame : renewed = { lease with expiresWallTimeNs := renewed.expiresWallTimeNs }) :
    (m.withControl control).Consistent known where
  generation := hgeneration.trans h.generation
  epoch := hepoch.trans h.epoch
  lease other hother := by
    obtain rfl := Option.some.inj (hrenewed.symm.trans hother)
    rw [hsame]
    exact h.lease lease hlease
  run run hrun := by
    obtain ⟨hknown, held, hheld, howner⟩ := h.run run hrun
    obtain rfl := Option.some.inj (hlease.symm.trans hheld)
    refine ⟨hknown, renewed, hrenewed, ?_⟩
    rw [hsame]
    exact howner
  context := h.context
  contextRun := h.contextRun
  pending pending hpending := by
    obtain ⟨hknown, hg, he, held, hheld, hrest⟩ := h.pending pending hpending
    obtain rfl := Option.some.inj (hlease.symm.trans hheld)
    refine ⟨hknown, hg, he, renewed, hrenewed, ?_⟩
    rw [hsame]
    exact hrest
  paused := h.paused

/-- A change which the mandate does not rest on. -/
theorem Consistent.standing (h : m.Consistent known) {standing : Standing}
    (hcontrol : standing.control = m.standing.control)
    (hgeneration : standing.generation = m.standing.generation)
    (hepoch : standing.daemonEpoch = m.standing.daemonEpoch)
    (hpaused : standing.administrativelyPaused = true → m.online = false) :
    ({ m with standing := standing } : Mandate).Consistent known where
  generation := by
    simp only [hcontrol, hgeneration]
    exact h.generation
  epoch := by
    simp only [hcontrol, hepoch]
    exact h.epoch
  lease := by
    simp only [hcontrol, hgeneration, hepoch]
    exact h.lease
  run := by
    simp only [hcontrol]
    exact h.run
  context := h.context
  contextRun := h.contextRun
  pending := by
    simp only [hcontrol, hgeneration, hepoch]
    exact h.pending
  paused := hpaused

end Mandate

namespace SlotActor

variable {known : Actor → Prop}

def Consistent (known : Actor → Prop) (s : SlotActor) : Prop := s.mandate.Consistent known

theorem Consistent.of_mandate {s t : SlotActor} (h : s.Consistent known)
    (heq : t.mandate = s.mandate) : t.Consistent known := by
  unfold Consistent
  rw [heq]
  exact h

/-! ## Routine -/

theorem consistent_expireControl {s : SlotActor} (h : s.Consistent known) :
    s.expireControl.Consistent known := by
  rcases s.mandate_expireControl with heq | hmandate
  · rw [heq]
    exact h
  · unfold Consistent
    rw [hmandate]
    exact Mandate.Consistent.withdrawn h

theorem consistent_expirePendingRunStart {s : SlotActor} (h : s.Consistent known) :
    s.expirePendingRunStart.Consistent known := by
  rcases s.mandate_expirePendingRunStart with hmandate | ⟨heq, -⟩
  · unfold Consistent
    rw [hmandate]
    exact Mandate.Consistent.withoutPending h
  · rw [heq]
    exact h

theorem consistent_closed {s : SlotActor} (h : s.Consistent known) :
    s.closedMandate.Consistent known :=
  Mandate.Consistent.of_idle (m := s.mandate.offline) rfl rfl h.epoch (fun _ => rfl)

theorem consistent_handlePortClosed (reason : String) {s : SlotActor}
    (h : s.Consistent known) : (s.handlePortClosed reason).Consistent known := by
  unfold Consistent
  rw [mandate_handlePortClosed]
  exact consistent_closed h

theorem consistent_handlePortEvent (event : PortEvent) {s : SlotActor}
    (h : s.Consistent known) : (s.handlePortEvent event).Consistent known := by
  unfold Consistent
  rcases s.mandate_handlePortEvent event with hmandate | hmandate
  · rw [hmandate]
    exact h
  · rw [hmandate]
    exact consistent_closed h

/-- A cancelled approval and an abandoned Run leave a consistent mandate. -/
theorem consistent_cancelPendingRunStart (reason : String) {s : SlotActor}
    (h : s.Consistent known) : (s.cancelPendingRunStart reason).Consistent known := by
  unfold Consistent
  rw [mandate_cancelPendingRunStart]
  exact Mandate.Consistent.withoutPending h

theorem mandate_cancelPendingForDisconnect (actorId : String) (s : SlotActor) :
    (s.cancelPendingForDisconnect actorId).mandate = s.mandate ∨
      (s.cancelPendingForDisconnect actorId).mandate = s.mandate.withoutPending := by
  unfold cancelPendingForDisconnect
  split
  · exact .inl rfl
  · split_ifs
    · exact .inr (s.mandate_cancelPendingRunStart _)
    · exact .inl rfl

theorem mandate_cancelPendingForDisconnect_of_approver {actorId : String} {s : SlotActor}
    (happrover : ∀ pending, s.authority.pendingRunStart = some pending →
      pending.approval.requiredApprover.id = actorId) :
    (s.cancelPendingForDisconnect actorId).mandate = s.mandate.withoutPending := by
  unfold cancelPendingForDisconnect
  split
  · rename_i hnone
    simp only [mandate, View.mandate, view, hnone, Mandate.withoutPending]
  · rename_i pending hpending
    rw [if_pos (.inr (happrover pending hpending))]
    exact s.mandate_cancelPendingRunStart _

theorem consistent_handleDisconnect (actorId : String) {s : SlotActor}
    (h : s.Consistent known) : (s.handleDisconnect actorId).Consistent known := by
  unfold handleDisconnect
  extract_lets owned loosened asked disconnected held cancelled
  have hloosened : loosened.mandate = s.mandate := by
    simp only [loosened]
    split_ifs
    · exact s.mandate_requestTriggerStop rfl (by decide)
    · rfl
  have hasked : asked.Consistent known := h.of_mandate hloosened
  unfold Consistent
  rw [mandate_dropLease rfl]
  have hcancelled := held.mandate_cancelPendingForDisconnect actorId
  have hheld : held.mandate = asked.mandate.withControl disconnected.1 := rfl
  cases hcurrent : asked.authority.control.current with
  | none =>
      have hdisconnected : disconnected = (asked.authority.control, none) := by
        simp only [disconnected, ControlState.disconnect, hcurrent]
      rw [hdisconnected] at hheld ⊢
      simp only [Option.isSome_none, Bool.false_eq_true, if_false]
      have hsame : held.mandate.Consistent known := by
        rw [hheld]
        exact hasked
      rcases hcancelled with heq | heq
      · rw [heq]
        exact hsame
      · rw [heq]
        exact hsame.withoutPending
  | some active =>
      by_cases howner : active.lease.owner.id = actorId
      · have hdisconnected : disconnected =
            ({ asked.authority.control with current := none },
              some { released := active.lease, promoted := none }) := by
          simp only [disconnected, ControlState.disconnect, hcurrent, howner, ne_eq,
            not_true_eq_false, if_false]
        -- the approver of a pending approval is the holder who disconnected
        have hpending : cancelled.mandate = held.mandate.withoutPending := by
          refine mandate_cancelPendingForDisconnect_of_approver (fun pending hwaiting => ?_)
          obtain ⟨-, -, -, lease, hlease, happrover, -⟩ :=
            Mandate.Consistent.pending hasked pending hwaiting
          have hactive : asked.authority.control.currentLease = some active.lease := by
            rw [ControlState.currentLease, hcurrent]
            rfl
          obtain rfl := Option.some.inj (hactive.symm.trans hlease)
          rw [← happrover, howner]
        rw [hpending, hheld, hdisconnected]
        simp only [Option.isSome_some, if_true]
        exact Mandate.Consistent.withdrawn hasked
      · have hdisconnected : disconnected = (asked.authority.control, none) := by
          simp only [disconnected, ControlState.disconnect, hcurrent, ne_eq, howner,
            not_false_eq_true, if_true]
        rw [hdisconnected] at hheld ⊢
        simp only [Option.isSome_none, Bool.false_eq_true, if_false]
        have hsame : held.mandate.Consistent known := by
          rw [hheld]
          exact hasked
        rcases hcancelled with heq | heq
        · rw [heq]
          exact hsame
        · rw [heq]
          exact hsame.withoutPending

end SlotActor
end SerialPlatform
