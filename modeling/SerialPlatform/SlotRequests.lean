import SerialPlatform.SlotRunStarts

/-!
# Handling requests

A request is answered from a cache or executed.  A physical one does at most one
action under its own id, and an id whose action may have touched the wire is not
executed again.
-/

namespace SerialPlatform

/-- A physical action of a request. -/
inductive Act (known : Actor → Prop) (origin : Origin) : View → View → Prop
  | wire {v w : View} (h : Wire known origin v w) : Act known origin v w
  | arm {v w : View} (h : Arm known origin v w) : Act known origin v w

namespace SlotActor

variable (hand : List RxSegment) {allowed : Origin → Prop} {known : Actor → Prop}

/-! ## Expiry -/

theorem advances_expireControl {s : SlotActor} (h : s.Consistent known) :
    Advances hand allowed known s s.expireControl :=
  .of_routinely (s.routinely_expireControl hand) (consistent_expireControl h)

theorem advances_expirePendingRunStart {s : SlotActor} (h : s.Consistent known) :
    Advances hand allowed known s s.expirePendingRunStart :=
  .of_routinely (s.routinely_expirePendingRunStart hand) (consistent_expirePendingRunStart h)

/-- An expiry ends the Run or leaves it as it is. -/
theorem run_expireControl (s : SlotActor) :
    (s.expireControl.authority.activeRun = none ∧
      s.expireControl.authority.runContext = none) ∨
    (s.expireControl.authority.activeRun = s.authority.activeRun ∧
      s.expireControl.authority.runContext = s.authority.runContext) := by
  rcases s.mandate_expireControl with heq | hmandate
  · rw [heq]
    exact .inr ⟨rfl, rfl⟩
  · exact .inl ⟨congrArg Mandate.activeRun hmandate, congrArg Mandate.runContext hmandate⟩

theorem gated_expireControl {actor : Actor} {s : SlotActor} (h : s.Gated actor) :
    s.expireControl.Gated actor := by
  unfold Gated
  rcases s.run_expireControl with ⟨hrun, hcontext⟩ | ⟨hrun, hcontext⟩
  · rw [hrun, hcontext]
    unfold validateAgentRunContext
    split_ifs <;> rfl
  · rw [hrun, hcontext]
    exact h

theorem roomy_expireControl {s : SlotActor} (h : s.Roomy) : s.expireControl.Roomy := by
  intro context hcontext
  rcases s.run_expireControl with ⟨-, hnone⟩ | ⟨-, hsame⟩
  · cases hnone.symm.trans hcontext
  · exact h context (hsame.symm.trans hcontext)

/-! ## Execution -/

theorem advances_execute {origin : Origin} {request : SlotRequest} {s : SlotActor}
    (h : s.Consistent known) (hknown : known request.actor)
    (hlogical : request.writeFingerprint = none) :
    Advances hand allowed known s (s.execute origin request).1 := by
  refine (advances_expireControl hand h).trans ?_
  have hexpired := consistent_expireControl h
  cases request with
  | acquire => exact advances_executeAcquire hand hexpired hknown
  | requestRunStart => exact advances_executeRequestRunStart hand _ _ _ _ hexpired hknown
  | decideRunStart => exact advances_executeDecideRunStart hand hexpired
  | cancelRunStart => exact advances_executeCancelRunStart hand hexpired
  | renew => exact advances_executeRenew hand hexpired
  | release => exact advances_executeRelease hand hexpired
  | cancelAcquire => exact .silent hexpired rfl
  | triggerStatus => exact advances_executeTriggerStatus hand hexpired
  | cancelTrigger => exact advances_executeCancelTrigger hand hexpired
  | startRun => exact advances_executeStartRun hand hexpired hknown
  | endRun => exact advances_executeEndRun hand hexpired
  | checkpoint => exact advances_executeCheckpoint hand hexpired
  | acknowledgeRunContext => exact advances_executeAcknowledgeRunContext hand hexpired
  | recordCommandCapture => exact advances_executeRecordCommandCapture hand hexpired
  | _ => cases hlogical

theorem Acts.mono {action action' : View → View → Prop} {s : SlotActor} {done : Executed}
    (h : Acts hand known action s done) (hmono : ∀ v w, action v w → action' v w) :
    Acts hand known action' s done := by
  refine ⟨?_, h.2⟩
  cases h.1 with
  | idle hpath => exact .idle hpath
  | acted hbefore hact hafter hkept => exact .acted hbefore (hmono _ _ hact) hafter hkept

/-- A physical request does at most one action. -/
theorem acts_execute {requestId : Uuid} {request : SlotRequest} {s : SlotActor} {now : ℕ}
    (h : s.Consistent known) (hflight : (s.view hand).FlightOk)
    (hknown : known request.actor) (hfields : request.validateBusinessFields = .ok ())
    (hvalid : request.validateWriteAuthorization s.authority.control s.authority.activeRun
      s.authority.runContext s.port.generation now = .ok ())
    (hroom : s.Roomy) (hphysical : request.writeFingerprint.isSome = true) :
    Acts hand known (Act known (.request requestId)) s
      (s.execute (.request requestId) request) := by
  have hexpired := consistent_expireControl h
  have hpath := s.routinely_expireControl hand
  have horigin : ∃ id, Origin.request requestId = .request id := ⟨_, rfl⟩
  have hwire : ∀ v w, Wire known (.request requestId) v w → Act known (.request requestId) v w :=
    fun v w => .wire
  refine Acts.after hpath ?_
  cases request with
  | sendHumanCommand =>
      exact (acts_executeSendHumanCommand hand hexpired (hpath.flightOk hflight) horigin
        hknown (roomy_expireControl hroom)).mono hand hwire
  | write =>
      obtain ⟨u, hgate, -⟩ := Except.exists_of_bind_ok hvalid
      exact (acts_executeWrite hand hexpired (fun _ => horigin) hknown
        (gated_expireControl hgate) (fun _ => roomy_expireControl hroom)).mono hand hwire
  | sendBreak =>
      obtain ⟨u, hgate, -⟩ := Except.exists_of_bind_ok hvalid
      exact (acts_executeSendBreak hexpired hknown (gated_expireControl hgate)).mono hand hwire
  | startTrigger =>
      obtain ⟨u, hgate, -⟩ := Except.exists_of_bind_ok hvalid
      exact (acts_executeStartTrigger hexpired hknown (gated_expireControl hgate)
        hfields).mono hand fun v w => .arm
  | _ => cases hphysical

end SlotActor
end SerialPlatform
