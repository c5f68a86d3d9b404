import SerialPlatform.SlotActs

/-!
# BREAKs and Triggers

A BREAK which the line does not support leaves the wire alone.  A Trigger is armed
behind its own reader barrier, under the mandate which was checked before it.
-/

namespace SerialPlatform
namespace SlotActor

variable {hand : List RxSegment} {known : Actor → Prop} {origin : Origin} {actor : Actor}

/-! ## BREAK -/

example : breakUnsupported none = false := by decide +kernel

theorem breakOnPort_cases (origin : Origin) (actor : Actor) (s : SlotActor) :
    (∃ error, s.breakOnPort origin actor = (s, .error error) ∨
      s.breakOnPort origin actor = (s.ask, .error error)) ∨
    ∃ outcome, s.breakOnPort origin actor =
      (s.ask.record (.portBreak origin actor outcome), .ok outcome) := by
  unfold breakOnPort
  cases s.port.port with
  | none => exact .inl ⟨_, .inl rfl⟩
  | some worker =>
      simp only
      split_ifs
      · exact .inl ⟨_, .inr rfl⟩
      all_goals exact .inr ⟨_, rfl⟩

theorem checkSendBreak_ok {controlId : Uuid} {fence durationMs : ℕ}
    {expectedRunId : Option Uuid} {precondition : Option SequenceWritePrecondition}
    {s : SlotActor}
    (hcheck : s.checkSendBreak actor controlId fence durationMs expectedRunId
      precondition = .ok ()) : s.trigger.activeTrigger = none := by
  unfold checkSendBreak at hcheck
  obtain ⟨-, hcheck⟩ := ensure_bind hcheck
  obtain ⟨hquiet, -⟩ := ensure_bind hcheck
  exact Option.isNone_iff_eq_none.mp hquiet

/-- A BREAK with the answer to it. -/
theorem acts_break {outcome : Option PortBreakOutcome} {s t : SlotActor}
    {result : SlotResult} (h : s.Consistent known) (hknown : known actor)
    (hquiet : s.trigger.activeTrigger = none) (hgate : s.Gated actor)
    (hafter : Calmly ((s.view hand).record (.portBreak origin actor outcome))
      (t.view hand))
    (hkept : isCacheableWriteResult result = true ∨
      ((s.view hand).record (.portBreak origin actor outcome)).touched =
        (s.view hand).touched) :
    Acts hand known (Wire known origin) s (t, result) := by
  have hact : Wire known origin (s.view hand)
      ((s.view hand).record (.portBreak origin actor outcome)) :=
    .sendBreak hknown hquiet hgate
  refine ⟨.acted .refl hact hafter.routinely hkept, ?_⟩
  have hmandate : t.mandate = s.mandate :=
    (hafter.mandate_eq : (t.view hand).mandate = (s.view hand).mandate)
  exact h.of_mandate hmandate

/-- An unsupported BREAK did not touch the wire. -/
theorem touched_unsupported {v : View} {message : String} {outcome : PortBreakOutcome}
    (herror : outcome.error = some (.unsupported message)) :
    (v.record (.portBreak origin actor (some outcome))).touched = v.touched := by
  have hunsupported : breakUnsupported (some outcome) = true := by
    unfold breakUnsupported
    rw [Option.bind_some, herror]
  have hnone : Effect.touched (.portBreak origin actor (some outcome)) = none :=
    if_pos hunsupported
  simp only [View.touched, View.record, List.filterMap_append, List.filterMap_cons, hnone,
    List.filterMap_nil, List.append_nil]

theorem acts_executeSendBreak {controlId : Uuid} {fence durationMs : ℕ}
    {operationId expectedRunId : Option Uuid}
    {precondition : Option SequenceWritePrecondition} {s : SlotActor}
    (h : s.Consistent known) (hknown : known actor) (hgate : s.Gated actor) :
    Acts hand known (Wire known origin) s
      (s.executeSendBreak origin actor controlId fence durationMs operationId
        expectedRunId precondition) := by
  unfold executeSendBreak
  extract_lets asked
  cases hcheck : asked.checkSendBreak actor controlId fence durationMs expectedRunId
      precondition with
  | error error => exact .refused .refl h
  | ok _ =>
      have hquiet := checkSendBreak_ok hcheck
      rcases asked.breakOnPort_cases origin actor with
        ⟨error, heq | heq⟩ | ⟨outcome, heq⟩
      · simp only [heq]
        exact .refused .refl h
      · simp only [heq]
        exact .refused .refl h
      · simp only [heq]
        cases outcome with
        | none => exact acts_break h hknown hquiet hgate .refl (.inl rfl)
        | some outcome =>
            simp only
            cases herror : outcome.error with
            | none =>
                have hemit := calmly_emit hand (rfl : EventKind.isPlain .uartBreak = true)
                  (some actor) operationId [("duration_ms", .num durationMs)]
                  (asked.ask.record (.portBreak origin actor (some outcome)))
                exact acts_break h hknown hquiet hgate hemit (.inl rfl)
            | some error =>
                cases error with
                | unsupported message =>
                    exact acts_break h hknown hquiet hgate .refl
                      (.inr (touched_unsupported herror))
                | failed message =>
                    exact acts_break h hknown hquiet hgate .refl (.inl rfl)

/-! ## Triggers -/

section Triggers

variable {controlId : Uuid} {fence : ℕ} {daemonEpoch : Uuid} {generation : ℕ}
  {operationId expectedRunId : Option Uuid}
  {precondition : Option SequenceWritePrecondition} {spec : TriggerSpec}

theorem checkStartTrigger_ok {s : SlotActor}
    (hcheck : s.checkStartTrigger actor controlId fence daemonEpoch generation expectedRunId
      spec = .ok ()) : s.trigger.activeTrigger = none := by
  unfold checkStartTrigger at hcheck
  obtain ⟨-, hcheck⟩ := ensure_bind hcheck
  obtain ⟨hquiet, -⟩ := ensure_bind hcheck
  exact Option.isNone_iff_eq_none.mp hquiet

theorem isNew_newTrigger (hspec : validateTriggerSpec spec = .ok ()) (s : SlotActor) :
    (s.newTrigger actor controlId fence daemonEpoch generation operationId expectedRunId
      spec).IsNew :=
  ⟨hspec, rfl, rfl, rfl, rfl⟩

theorem acts_armTrigger {trigger : ActiveTrigger} {s : SlotActor} {info : TriggerInfo}
    (h : s.Consistent known) (hknown : known trigger.info.owner)
    (hquiet : s.trigger.activeTrigger = none) (hgate : s.Gated trigger.info.owner)
    (hnew : trigger.IsNew) :
    Acts hand known (Arm known origin) s
      ((s.armTrigger origin trigger).answerWith (.triggerStarted info)) := by
  have hact : Arm known origin (s.view hand)
      (((s.setTrigger trigger).record (.triggerArmed origin trigger)).view hand) :=
    .arm (v := s.view hand) hknown hquiet hgate hnew
  have hemit : Calmly (((s.setTrigger trigger).record (.triggerArmed origin trigger)).view
      hand) ((s.armTrigger origin trigger).view hand) :=
    calmly_emitInner hand _ rfl
  have hmandate : (s.armTrigger origin trigger).mandate = s.mandate :=
    (hemit.mandate_eq : ((s.armTrigger origin trigger).view hand).mandate = s.mandate)
  exact ⟨.acted .refl hact hemit.routinely (.inl rfl), h.of_mandate hmandate⟩

theorem acts_executeStartTrigger {s : SlotActor} (h : s.Consistent known)
    (hknown : known actor) (hgate : s.Gated actor)
    (hspec : validateTriggerSpec spec = .ok ()) :
    Acts hand known (Arm known origin) s
      (s.executeStartTrigger origin actor controlId fence daemonEpoch generation operationId
        expectedRunId precondition spec) := by
  unfold executeStartTrigger
  extract_lets asked flushed held rechecked armed trigger
  cases hcheck : asked.checkStartTrigger actor controlId fence daemonEpoch generation
      expectedRunId spec with
  | error error => exact .refused .refl h
  | ok _ =>
      have hquiet := checkStartTrigger_ok hcheck
      have harming : (asked.setArming true).Consistent known := h
      obtain ⟨hpath, hconsistent, hsame⟩ :=
        (asked.setArming true).flushPretriggerRx_spec hand harming
      have hwaited : Routinely (s.view hand) (held.view hand) := hpath
      have hready : held.Consistent known := hconsistent
      cases houtcome : flushed.2 with
      | error error => exact .refused hwaited hready
      | ok _ =>
          simp only
          split
          · exact .refused hwaited hready
          · have hmandate : flushed.1.mandate = s.mandate := hsame houtcome
            have hstill : (flushed.1.view hand).activeTrigger = none :=
              hpath.rests.trigger hquiet
            have hrun : flushed.1.authority.activeRun = s.authority.activeRun :=
              congrArg Mandate.activeRun hmandate
            have hcontext : flushed.1.authority.runContext = s.authority.runContext :=
              congrArg Mandate.runContext hmandate
            have hopen : flushed.1.Gated actor := by
              unfold Gated
              rw [hrun, hcontext]
              exact hgate
            have hnew : trigger.IsNew := isNew_newTrigger hspec armed
            have harmed : armed.Consistent known := hconsistent
            have hreached : Routinely (s.view hand) (armed.view hand) := hpath
            exact Acts.after hreached (acts_armTrigger harmed hknown hstill hopen hnew)

end Triggers

end SlotActor
end SerialPlatform
