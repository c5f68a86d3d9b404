import SerialPlatform.ExceptBind
import SerialPlatform.SlotWaits

/-!
# Physical requests

A physical request takes routine steps and at most one action.  An action which
may have touched the wire leaves a result which is kept under the request id.
-/

namespace SerialPlatform

/-! ## Checks -/

theorem SlotActor.ensure_ok {condition : Bool} {error : SlotError}
    (h : SlotActor.ensure condition error = .ok ()) : condition = true := by
  unfold SlotActor.ensure at h
  split_ifs at h with hcondition
  exact hcondition

theorem SlotActor.ensure_bind {α : Type} {condition : Bool} {error : SlotError}
    {f : Unit → Except SlotError α} {a : α}
    (h : (SlotActor.ensure condition error >>= f) = .ok a) :
    condition = true ∧ f () = .ok a := by
  obtain ⟨u, hu, hf⟩ := Except.exists_of_bind_ok h
  exact ⟨SlotActor.ensure_ok hu, hf⟩

/-! ## Traces -/

def Origin.requestId : Origin → Option Uuid
  | .request id => some id
  | _ => none

/-- The port refused the BREAK without touching the line. -/
def breakUnsupported (outcome : Option PortBreakOutcome) : Bool :=
  match outcome.bind PortBreakOutcome.error with
  | some (.unsupported _) => true
  | _ => false

/-- The request whose physical action may have touched the wire. -/
def Effect.touched : Effect → Option Uuid
  | .portWrite origin .. => origin.requestId
  | .portBreak origin _ outcome => if breakUnsupported outcome then none else origin.requestId
  | .triggerArmed origin _ => origin.requestId
  | _ => none

def View.touched (v : View) : List Uuid := v.trace.filterMap Effect.touched

/-- How a physical request goes. -/
inductive Acted (action : View → View → Prop) (v w : View) (result : SlotResult) : Prop
  | idle (h : Routinely v w)
  | acted {v₁ v₂ : View} (hbefore : Routinely v v₁) (hact : action v₁ v₂)
      (hafter : Routinely v₂ w)
      (hkept : isCacheableWriteResult result = true ∨ v₂.touched = v₁.touched)

namespace SlotActor

variable (hand : List RxSegment) {known : Actor → Prop}

/-! ## Metadata of writes -/

theorem lookup_writeEventMetadata (isPartial cooperative : Bool)
    (description : Option String) (matchers : List CommandCaptureMatcher)
    (sequence : Option CommandSequenceAuditContext) :
    (writeEventMetadata isPartial cooperative description matchers sequence).lookup
        "human_command" = none ∧
      (writeEventMetadata isPartial cooperative description matchers sequence).lookup
        "trigger_id" = none := by
  unfold writeEventMetadata
  cases description <;> cases sequence <;> split_ifs <;> simp [List.lookup]

theorem lookup_macroTxMetadata (s : SlotActor) :
    s.macroTxMetadata.lookup "human_command" = none ∧
      s.macroTxMetadata.lookup "trigger_id" = none := by
  unfold macroTxMetadata
  split
  · exact ⟨rfl, rfl⟩
  · split_ifs <;> simp [List.lookup]

/-! ## Writes -/

/-- The gate of the Agent on the actor. -/
def Gated (actor : Actor) (s : SlotActor) : Prop :=
  validateAgentRunContext actor s.authority.activeRun s.authority.runContext = .ok ()

/-- There is room for one more intervention. -/
def Roomy (s : SlotActor) : Prop :=
  ∀ context, s.authority.runContext = some context →
    context.revision < writeIdempotencyHistoryEntries

/-- What the port queue did with a write. -/
theorem writeToPort_cases (origin : Origin) (actor : Actor) (data : Bytes)
    (pacing : WritePacing) (s : SlotActor) :
    (∃ error, s.writeToPort origin actor data pacing = (s, .error error) ∨
      s.writeToPort origin actor data pacing = (s.ask, .error error)) ∨
    ∃ worker run, (s.view hand).Sent worker data run ∧
      s.writeToPort origin actor data pacing =
        (s.ask.record (.portWrite origin actor data run s.ask.now), .ok run.outcome) := by
  unfold writeToPort
  cases hport : s.port.port with
  | none => exact .inl ⟨_, .inl rfl⟩
  | some worker =>
      simp only
      split_ifs
      · exact .inl ⟨_, .inr rfl⟩
      · exact .inr ⟨worker, s.ask.writerRun worker data pacing,
          sent_writerRun (s := s.ask) hand hport, rfl⟩

theorem written_of_outcome {run : WriterRun} {outcome : PortWriteOutcome}
    (houtcome : run.outcome = some outcome) : run.written = outcome.written := by
  unfold WriterRun.written
  rw [houtcome]
  rfl

/-- A worker which is gone took nothing. -/
theorem Sent.alive {v : View} {worker : PortWorker} {data : Bytes} {run : WriterRun}
    (hsent : v.Sent worker data run) (hwritten : 0 < run.written) :
    worker.stopped = false := by
  cases hstopped : worker.stopped with
  | false => rfl
  | true =>
      rw [hsent.stopped hstopped] at hwritten
      exact absurd hwritten (lt_irrefl 0)

theorem cacheable_writeAnswer {total generation : ℕ} {operationId : Option Uuid}
    {eventSeq : Option ℕ} {outcome : PortWriteOutcome} {accepted : CommandResult}
    (haccepted : isCacheableWriteResult (.ok accepted) = true) :
    isCacheableWriteResult
      (writeAnswer total operationId generation eventSeq outcome accepted) = true := by
  unfold writeAnswer
  split_ifs
  · rfl
  · exact haccepted

/-- The TX event of an action, behind the write itself. -/
theorem view_tx {origin : Origin} {actor : Actor} {data : Bytes} {run : WriterRun}
    {checkedAt : ℕ} (operationId : Option Uuid) (metadata : Metadata) {t : SlotActor}
    (written : ℕ) {v : View}
    (hview : t.view hand = v.record (.portWrite origin actor data run checkedAt)) :
    ∃ event, (v.record (.portWrite origin actor data run checkedAt)).IsTx event actor data
        written ∧ event.metadata = metadata ∧
      event.runId = t.authority.activeRun.map RunInfo.id ∧
      View.Noted ((v.record (.portWrite origin actor data run checkedAt)).emit event)
        ((t.emit .tx .tx (data.take written) (some actor) operationId metadata).view
          hand) := by
  obtain ⟨event, his, hnext, hnoted⟩ := t.view_emitInner hand .tx .tx (data.take written)
    (some actor) operationId (t.authority.activeRun.map RunInfo.id) metadata
  rw [hview] at hnext hnoted
  exact ⟨event, ⟨his.kind, his.direction, his.actor, his.data, hnext⟩, his.metadata,
    his.runId, hnoted⟩

/-! ## The answers of a write -/

/-- What a write leaves: the action, and a result which keeps it. -/
def Acts (known : Actor → Prop) (action : View → View → Prop) (s : SlotActor)
    (done : Executed) : Prop :=
  Acted action (s.view hand) (done.1.view hand) done.2 ∧ done.1.Consistent known

variable {hand}

theorem Acts.refused {action : View → View → Prop} {s t : SlotActor} {error : SlotError}
    (hpath : Routinely (s.view hand) (t.view hand)) (h : t.Consistent known) :
    Acts hand known action s (t.refuse error) := ⟨.idle hpath, h⟩

theorem Acts.after {action : View → View → Prop} {s t : SlotActor} {done : Executed}
    (hpath : Routinely (s.view hand) (t.view hand)) (h : Acts hand known action t done) :
    Acts hand known action s done := by
  refine ⟨?_, h.2⟩
  cases h.1 with
  | idle hrest => exact .idle (hpath.trans hrest)
  | acted hbefore hact hafter hkept => exact .acted (hpath.trans hbefore) hact hafter hkept

variable (hand)

section Writes

theorem mandate_of_recorded {s t : SlotActor} {effect : Effect}
    (hview : t.view hand = (s.view hand).record effect) : t.mandate = s.mandate :=
  (congrArg View.mandate hview : (t.view hand).mandate = ((s.view hand).record effect).mandate)

theorem revision_interferedContext {runId : Uuid} {s : SlotActor} (hroom : s.Roomy) :
    ((s.view hand).interferedContext runId).revision ≤ writeIdempotencyHistoryEntries := by
  have hadd : ∀ revision, satAdd u64Max revision 1 ≤ revision + 1 :=
    fun revision => min_le_left _ _
  cases hcontext : s.authority.runContext with
  | none =>
      have hview : (s.view hand).runContext = none := hcontext
      simp only [View.interferedContext, hview, Option.getD_none, freshRunContext]
      exact (hadd 0).trans (by decide)
  | some context =>
      have hview : (s.view hand).runContext = some context := hcontext
      simp only [View.interferedContext, hview, Option.getD_some]
      exact (hadd _).trans (hroom context hcontext)

variable {origin : Origin} {actor : Actor} {data : Bytes} {worker : PortWorker}
  {run : WriterRun} {checkedAt : ℕ}

/-- A write of which nothing is known to be written. -/
theorem acts_silent {s t : SlotActor} {result : SlotResult} (h : s.Consistent known)
    (hview : t.view hand =
      (s.view hand).record (.portWrite origin actor data run checkedAt))
    (hknown : known actor) (hsent : (s.view hand).Sent worker data run)
    (hwritten : run.written = 0)
    (hquiet : s.trigger.activeTrigger = none ∨ worker.stopped = true)
    (hgate : s.Gated actor) (hresult : isCacheableWriteResult result = true) :
    Acts hand known (Wire known origin) s (t, result) := by
  have hact : Wire known origin (s.view hand) (t.view hand) := by
    rw [hview]
    exact .writeSilent hknown hsent hwritten hquiet hgate
  exact ⟨.acted .refl hact .refl (.inl hresult), h.of_mandate (mandate_of_recorded hand hview)⟩

/-- A write with its TX event, outside of the Run of another actor. -/
theorem acts_tx {s t : SlotActor} {result : SlotResult} {operationId : Option Uuid}
    {metadata : Metadata} (h : s.Consistent known)
    (hview : t.view hand =
      (s.view hand).record (.portWrite origin actor data run checkedAt))
    (hknown : known actor) (hsent : (s.view hand).Sent worker data run)
    (hwritten : 0 < run.written) (hquiet : s.trigger.activeTrigger = none)
    (hgate : s.Gated actor)
    (hhuman : metadata.lookup "human_command" = none ∨ actor.kind = .human ∧
      ∀ active, s.authority.activeRun = some active → active.owner.id = actor.id)
    (htrigger : metadata.lookup "trigger_id" = none)
    (hresult : isCacheableWriteResult result = true) :
    Acts hand known (Wire known origin) s
      (t.emit .tx .tx (data.take run.written) (some actor) operationId metadata,
        result) := by
  obtain ⟨event, htx, hmetadata, -, hnoted⟩ :=
    view_tx hand operationId metadata run.written hview
  have hcommand : event.isHumanCommand = true → actor.kind = .human ∧
      ∀ active, s.authority.activeRun = some active → active.owner.id = actor.id := by
    intro hevent
    rcases hhuman with hnone | hown
    · rw [TimelineEvent.isHumanCommand, hmetadata, hnone] at hevent
      cases hevent
    · exact hown
  have hid : event.triggerId = none := by
    rw [TimelineEvent.triggerId, hmetadata, htrigger]
  refine ⟨.acted .refl (.write hknown hsent hwritten hquiet hgate hcommand htx hid)
    hnoted.calmly.routinely (.inl hresult), ?_⟩
  rw [emit]
  exact h.of_mandate ((mandate_emitInner _).trans (mandate_of_recorded hand hview))

/-- A write of a Human with its TX event, inside of an Agent Run. -/
theorem acts_intervention {s t : SlotActor} {result : SlotResult}
    {operationId : Option Uuid} {metadata : Metadata} {active : RunInfo}
    (h : s.Consistent known) (horigin : ∃ id, origin = .request id)
    (hview : t.view hand =
      (s.view hand).record (.portWrite origin actor data run checkedAt))
    (hknown : known actor) (hsent : (s.view hand).Sent worker data run)
    (hwritten : 0 < run.written) (hquiet : s.trigger.activeTrigger = none)
    (hactor : actor.kind = .human) (hrun : s.authority.activeRun = some active)
    (hother : active.owner.id ≠ actor.id ∨ active.owner.kind = .agent) (hroom : s.Roomy)
    (hhuman : metadata.lookup "human_command" = some (.bool true))
    (htrigger : metadata.lookup "trigger_id" = none)
    (hresult : isCacheableWriteResult result = true) :
    Acts hand known (Wire known origin) s
      ((t.noteIntervention active.id).emit .tx .tx (data.take run.written) (some actor)
        operationId metadata, result) := by
  have hcontext : t.interferedContext active.id = (s.view hand).interferedContext active.id := by
    have hseq : t.timeline.seq = s.timeline.seq := congrArg View.seq hview
    have hbefore : t.authority.runContext = s.authority.runContext :=
      congrArg View.runContext hview
    unfold interferedContext View.interferedContext nextSeq
    rw [hseq, hbefore]
    rfl
  have hnoted : (t.noteIntervention active.id).view hand =
      ({ s.view hand with
        runContext := some ((s.view hand).interferedContext active.id) } : View).record
        (.portWrite origin actor data run checkedAt) := by
    have hset : (t.noteIntervention active.id).view hand =
        { t.view hand with runContext := some (t.interferedContext active.id) } := rfl
    rw [hset, hview, hcontext]
    rfl
  obtain ⟨event, htx, hmetadata, hid, hnotes⟩ :=
    view_tx hand operationId metadata run.written hnoted
  have hactive : t.authority.activeRun = some active :=
    (congrArg View.activeRun hview).trans hrun
  have hevent : event.isHumanCommand = true := by
    rw [TimelineEvent.isHumanCommand, hmetadata, hhuman, htx.kind]
    rfl
  have htriggerId : event.triggerId = none := by
    rw [TimelineEvent.triggerId, hmetadata, htrigger]
  have hrunId : event.runId = some active.id :=
    hid.trans (congrArg (Option.map RunInfo.id) hactive)
  have hplain : ((s.view hand).record (.portWrite origin actor data run checkedAt)).IsTx
      event actor data run.written :=
    ⟨htx.kind, htx.direction, htx.actor, htx.data, htx.next.seq, htx.next.offsets,
      htx.next.port, htx.next.epoch⟩
  have hact := Wire.intervene (v := s.view hand) horigin hknown hsent hwritten hquiet hactor
    hrun hother (revision_interferedContext hand hroom) hevent hrunId hplain htriggerId
  refine ⟨.acted .refl hact hnotes.calmly.routinely (.inl hresult), ?_⟩
  rw [emit]
  have hmandate : (t.noteIntervention active.id).mandate =
      s.mandate.informed ((s.view hand).interferedContext active.id) :=
    (congrArg View.mandate hnoted : ((t.noteIntervention active.id).view hand).mandate = _)
  have hinformed : (t.noteIntervention active.id).Consistent known := by
    unfold Consistent
    rw [hmandate]
    refine Mandate.Consistent.informed h (fun other hother => ?_)
    obtain rfl := Option.some.inj (hrun.symm.trans hother)
    cases hbefore : s.authority.runContext with
    | none =>
        have hnone : (s.view hand).runContext = none := hbefore
        simp only [View.interferedContext, hnone, Option.getD_none, freshRunContext]
    | some context =>
        have hsome : (s.view hand).runContext = some context := hbefore
        simp only [View.interferedContext, hsome, Option.getD_some]
        exact Mandate.Consistent.contextRun h context active hbefore hrun
  exact hinformed.of_mandate (mandate_emitInner _)

theorem validateCooperativeWrite_ok {expectedRunId : Option Uuid} {control : ControlState}
    {activeRun : Option RunInfo} {u : Unit}
    (hvalid : validateCooperativeWrite actor expectedRunId control activeRun = .ok u) :
    actor.kind = .human ∧ ∀ run, activeRun = some run → run.owner.kind = .agent := by
  unfold validateCooperativeWrite at hvalid
  by_cases hkind : actor.kind ≠ .human
  · rw [if_pos hkind] at hvalid
    cases hvalid
  · rw [if_neg hkind] at hvalid
    refine ⟨not_not.mp hkind, fun run hrun => ?_⟩
    subst hrun
    cases expectedRunId with
    | none => cases hvalid
    | some expected =>
        cases hlease : control.currentLease with
        | none =>
            rw [hlease] at hvalid
            cases hvalid
        | some lease =>
            rw [hlease] at hvalid
            simp only at hvalid
            split_ifs at hvalid with hid howner
            exact not_not.mp fun hne => howner (.inr (.inl hne))

/-- The write comes with its lease, its Run and no Trigger around. -/
theorem checkWrite_ok {controlId : Uuid} {fence : ℕ} {expectedRunId : Option Uuid}
    {pacing : Option WritePacing} {precondition : Option SequenceWritePrecondition}
    {cooperative : Bool} {resolved : WritePacing} {s : SlotActor}
    (hcheck : s.checkWrite actor controlId fence data expectedRunId pacing precondition
      cooperative = .ok resolved) :
    s.trigger.activeTrigger = none ∧ (cooperative = true → actor.kind = .human ∧
      ∀ run, s.authority.activeRun = some run → run.owner.kind = .agent) := by
  unfold checkWrite at hcheck
  obtain ⟨-, hcheck⟩ := ensure_bind hcheck
  obtain ⟨hquiet, hcheck⟩ := ensure_bind hcheck
  refine ⟨Option.isNone_iff_eq_none.mp hquiet, fun hcooperative => ?_⟩
  rw [if_pos hcooperative] at hcheck
  obtain ⟨u, hvalid, -⟩ := Except.exists_of_bind_ok hcheck
  exact validateCooperativeWrite_ok hvalid

theorem gated_of_human {s : SlotActor} (hkind : actor.kind = .human) : s.Gated actor := by
  unfold Gated validateAgentRunContext
  rw [hkind]
  rfl

theorem lookup_writeTx {metadata rest : Metadata} {key : String} {s : SlotActor}
    (hmetadata : metadata.lookup key = none) (hadded : s.macroTxMetadata.lookup key = none) :
    (metadata ++ s.macroTxMetadata ++ rest).lookup key = rest.lookup key := by
  rw [List.append_assoc, List.lookup_append, hmetadata, List.lookup_append, hadded]
  rfl

theorem acts_finishWrite {operationId : Option Uuid} {cooperative : Bool}
    {metadata : Metadata} {outcome : PortWriteOutcome} {s t : SlotActor}
    (h : s.Consistent known) (horigin : cooperative = true → ∃ id, origin = .request id)
    (hview : t.view hand =
      (s.view hand).record (.portWrite origin actor data run checkedAt))
    (hknown : known actor) (hsent : (s.view hand).Sent worker data run)
    (houtcome : run.outcome = some outcome) (hquiet : s.trigger.activeTrigger = none)
    (hgate : s.Gated actor) (hroom : cooperative = true → s.Roomy)
    (hhuman : cooperative = true → actor.kind = .human ∧
      ∀ run, s.authority.activeRun = some run → run.owner.kind = .agent)
    (hmetadata : metadata.lookup "human_command" = none ∧
      metadata.lookup "trigger_id" = none) :
    Acts hand known (Wire known origin) s
      (t.finishWrite actor data operationId cooperative metadata outcome) := by
  have hwritten : run.written = outcome.written := written_of_outcome houtcome
  have hadded := t.lookup_macroTxMetadata
  have hplain : ∀ key, metadata.lookup key = none → t.macroTxMetadata.lookup key = none →
      (metadata ++ t.macroTxMetadata).lookup key = none := by
    intro key hkey hother
    rw [List.lookup_append, hkey, hother]
    rfl
  have hactive : t.authority.activeRun = s.authority.activeRun :=
    congrArg View.activeRun hview
  unfold finishWrite
  split_ifs with hsome
  · have hpositive : 0 < run.written := by rwa [hwritten]
    unfold emitWriteTx
    rw [← hwritten]
    cases hcooperative : cooperative with
    | false =>
        exact acts_tx hand h hview hknown hsent hpositive hquiet hgate
          (.inl (hplain _ hmetadata.1 hadded.1)) (hplain _ hmetadata.2 hadded.2)
          (cacheable_writeAnswer rfl)
    | true =>
        cases hrun : s.authority.activeRun with
        | none =>
            rw [hactive, hrun]
            exact acts_tx hand h hview hknown hsent hpositive hquiet hgate
              (.inl (hplain _ hmetadata.1 hadded.1)) (hplain _ hmetadata.2 hadded.2)
              (cacheable_writeAnswer rfl)
        | some active =>
            rw [hactive, hrun]
            exact acts_intervention hand h (horigin hcooperative) hview hknown hsent
              hpositive hquiet (hhuman hcooperative).1 hrun
              (.inr ((hhuman hcooperative).2 active hrun)) (hroom hcooperative)
              (lookup_writeTx hmetadata.1 hadded.1) (lookup_writeTx hmetadata.2 hadded.2)
              (cacheable_writeAnswer rfl)
  · exact acts_silent hand h hview hknown hsent (by omega) (.inl hquiet) hgate
      (cacheable_writeAnswer rfl)

theorem acts_executeWrite {controlId : Uuid} {fence : ℕ}
    {operationId expectedRunId : Option Uuid} {pacing : Option WritePacing}
    {description : Option String} {matchers : List CommandCaptureMatcher}
    {sequence : Option CommandSequenceAuditContext}
    {precondition : Option SequenceWritePrecondition} {cooperative : Bool} {s : SlotActor}
    (h : s.Consistent known) (horigin : cooperative = true → ∃ id, origin = .request id)
    (hknown : known actor) (hgate : s.Gated actor)
    (hroom : cooperative = true → s.Roomy) :
    Acts hand known (Wire known origin) s
      (s.executeWrite origin actor controlId fence data operationId expectedRunId pacing
        description matchers sequence precondition cooperative) := by
  unfold executeWrite
  extract_lets asked
  cases hcheck : asked.checkWrite actor controlId fence data expectedRunId pacing
      precondition cooperative with
  | error error => exact .refused .refl h
  | ok resolved =>
      obtain ⟨hquiet, hhuman⟩ := checkWrite_ok hcheck
      rcases asked.writeToPort_cases hand origin actor data resolved with
        ⟨error, heq | heq⟩ | ⟨worker, run, hsent, heq⟩
      · simp only [heq]
        exact .refused .refl h
      · simp only [heq]
        exact .refused .refl h
      · simp only [heq]
        have hview : (asked.ask.record (.portWrite origin actor data run asked.ask.now)).view
            hand = (s.view hand).record
              (.portWrite origin actor data run asked.ask.now) := rfl
        cases houtcome : run.outcome with
        | none =>
            have hnone : run.written = 0 := by
              unfold WriterRun.written
              rw [houtcome]
              rfl
            exact acts_silent hand h hview hknown hsent hnone (.inl hquiet) hgate rfl
        | some outcome =>
            exact acts_finishWrite hand h horigin hview hknown hsent houtcome hquiet hgate
              hroom hhuman (lookup_writeEventMetadata _ _ _ _ _)

end Writes

/-! ## Human commands -/

/-- The Run of which a lease makes a Human command part. -/
def Fits (actor : Actor) (activeRun : Option RunInfo) (lease : HumanCommandLease) : Prop :=
  match lease.interferedRunId with
  | none => ∀ run, activeRun = some run → run.owner.id = actor.id
  | some runId => ∃ run, activeRun = some run ∧ run.id = runId ∧ run.owner.id ≠ actor.id

section HumanCommands

variable {actor : Actor}

theorem checkHumanCommand_ok {expectedGeneration : ℕ} {data : Bytes}
    {operationId : Option Uuid} {input : Option HumanLineInput} {s : SlotActor}
    (hcheck : s.checkHumanCommand actor expectedGeneration data operationId input =
      .ok ()) : actor.kind = .human ∧ s.port.port.isSome = true := by
  unfold checkHumanCommand at hcheck
  obtain ⟨hkind, hcheck⟩ := ensure_bind hcheck
  obtain ⟨-, hcheck⟩ := ensure_bind hcheck
  obtain ⟨hport, -⟩ := ensure_bind hcheck
  exact ⟨of_decide_eq_true hkind, hport⟩

/-- A port without a lease is leased. -/
theorem grantIfIdle_ok {control : ControlState} {ttlMs now : ℕ} {wall : ℤ} {freshId : Uuid}
    {lease : ControlLease}
    (hgranted : (control.grantIfIdle actor ttlMs wall now freshId).2 = .ok lease) :
    control.current = none ∧ lease.owner = actor ∧
      lease = (control.grant actor ttlMs wall now freshId).2 ∧
      (control.grantIfIdle actor ttlMs wall now freshId).1 =
        (control.grant actor ttlMs wall now freshId).1 := by
  unfold ControlState.grantIfIdle at hgranted ⊢
  by_cases hcurrent : control.current.isSome = true
  · rw [if_pos hcurrent] at hgranted
    cases hgranted
  · rw [if_neg hcurrent] at hgranted ⊢
    have hidle : control.current = none := by
      rwa [Option.not_isSome_iff_eq_none] at hcurrent
    obtain rfl := Except.ok.inj hgranted
    exact ⟨hidle, rfl, rfl, rfl⟩

/-- Whoever is granted an idle port holds its only lease. -/
theorem consistent_granted (ttlMs now : ℕ) (wall : ℤ) (freshId : Uuid) {s : SlotActor}
    (h : s.Consistent known) (hknown : known actor) (hport : s.port.port.isSome = true)
    (hidle : s.authority.control.current = none) :
    (s.setControl (s.authority.control.grant actor ttlMs wall now freshId).1).Consistent
      known := by
  have hgranted := Mandate.Granted.of_grant (Mandate.Consistent.generation h)
    (Mandate.Consistent.epoch h) actor ttlMs wall now freshId
  exact Mandate.Consistent.granted h hgranted hknown hport
    (Mandate.Consistent.idle_run h hidle) (Mandate.Consistent.idle_pending h hidle)

theorem leaseForHumanCommand_spec {s : SlotActor} (h : s.Consistent known)
    (hknown : known actor) (hport : s.port.port.isSome = true) :
    Routinely (s.view hand) ((s.leaseForHumanCommand actor).1.view hand) ∧
      (s.leaseForHumanCommand actor).1.Consistent known ∧
      (s.leaseForHumanCommand actor).1.authority.runContext = s.authority.runContext ∧
      ∀ lease, (s.leaseForHumanCommand actor).2 = .ok lease →
        Fits actor (s.leaseForHumanCommand actor).1.authority.activeRun lease := by
  unfold leaseForHumanCommand
  extract_lets asked
  cases hcurrent : asked.authority.control.currentLease with
  | none =>
      simp only
      cases hgrant : (asked.authority.control.grantIfIdle actor 60000 asked.answer.wall
          asked.now asked.answer.uuid).2 with
      | error error => exact ⟨.refl, h, rfl, fun lease hlease => by cases hlease⟩
      | ok lease =>
          obtain ⟨hidle, -, -, hcontrol⟩ := grantIfIdle_ok hgrant
          rw [hcontrol]
          have hset := asked.routinely_setControl hand
            (asked.authority.control.grant actor 60000 asked.answer.wall asked.now
              asked.answer.uuid).1
          have hasked : asked.Consistent known := h
          have hconsistent := consistent_granted 60000 asked.now asked.answer.wall
            asked.answer.uuid hasked hknown hport hidle
          have hemit := calmly_emitControlGranted hand lease (asked.setControl
            (asked.authority.control.grant actor 60000 asked.answer.wall asked.now
              asked.answer.uuid).1)
          have hmandate := mandate_of_calmly hemit
          refine ⟨hset.trans hemit.routinely, hconsistent.of_mandate hmandate,
            congrArg Mandate.runContext hmandate, fun fits hfits => ?_⟩
          obtain rfl := Except.ok.inj hfits
          intro run hrun
          have hnone := Mandate.Consistent.idle_run h hidle
          have hsame : s.authority.activeRun = some run :=
            (congrArg Mandate.activeRun hmandate).symm.trans hrun
          cases hnone.symm.trans hsame
  | some lease =>
      have hlease : s.authority.control.currentLease = some lease := hcurrent
      simp only
      split_ifs with howner hkind
      · cases asked.authority.control.currentRemainingTtl asked.now with
        | error error => exact ⟨.refl, h, rfl, fun lease hlease => by cases hlease⟩
        | ok remaining =>
            refine ⟨.refl, h, rfl, fun fits hfits => ?_⟩
            obtain rfl := Except.ok.inj hfits
            intro run hrun
            obtain ⟨-, held, hheld, hholder⟩ := Mandate.Consistent.run h run hrun
            obtain rfl := Option.some.inj (hlease.symm.trans hheld)
            exact hholder.symm.trans howner
      · cases hrun : asked.authority.activeRun with
        | none => exact ⟨.refl, h, rfl, fun lease hlease => by cases hlease⟩
        | some run =>
            simp only
            split_ifs with hactive
            · exact ⟨.refl, h, rfl, fun lease hlease => by cases hlease⟩
            · cases asked.authority.control.currentRemainingTtl asked.now with
              | error error => exact ⟨.refl, h, rfl, fun lease hlease => by cases hlease⟩
              | ok remaining =>
                  refine ⟨.refl, h, rfl, fun fits hfits => ?_⟩
                  obtain rfl := Except.ok.inj hfits
                  have hholder : run.owner.id = lease.owner.id :=
                    not_not.mp fun hne => hactive (.inl hne)
                  exact ⟨run, hrun, rfl, fun hsame => howner (hholder.symm.trans hsame)⟩
      · exact ⟨.refl, h, rfl, fun lease hlease => by cases hlease⟩

theorem quietenForHumanCommand_spec (mode : HumanCommandMode) {s : SlotActor}
    (h : s.Consistent known) (hflight : (s.view hand).FlightOk) :
    Routinely (s.view hand) ((s.quietenForHumanCommand mode).1.view hand) ∧
      (s.quietenForHumanCommand mode).1.Consistent known ∧
      s.Yielded (s.quietenForHumanCommand mode).1 ∧
      ((s.quietenForHumanCommand mode).2 = .ok () →
        (s.quietenForHumanCommand mode).1.trigger.activeTrigger = none ∨
          ((s.quietenForHumanCommand mode).1.view hand).Gone) := by
  unfold quietenForHumanCommand
  extract_lets stopped
  have hcalm : Calmly (s.view hand) (stopped.view hand) := s.calmly_stopMacro hand _ _
  have hstopped : stopped.Consistent known := h.of_mandate (mandate_of_calmly hcalm)
  have hyielded : s.Yielded stopped := .inl (mandate_of_calmly hcalm)
  split_ifs with hactive
  · cases mode with
    | cooperative =>
        obtain ⟨hpath, hconsistent, hwaited, hend⟩ :=
          stopped.quiesceTriggerForHumanCommand_spec hand hstopped (hcalm.flightOk hflight)
        exact ⟨hcalm.routinely.trans hpath, hconsistent, hyielded.trans hwaited,
          fun _ => hend⟩
    | owned => exact ⟨hcalm.routinely, hstopped, hyielded, fun hok => by cases hok⟩
  · exact ⟨hcalm.routinely, hstopped, hyielded,
      fun _ => .inl (Option.not_isSome_iff_eq_none.mp hactive)⟩

section Finishing

variable {origin : Origin} {data : Bytes} {worker : PortWorker} {run : WriterRun}
  {checkedAt : ℕ}

theorem lookup_humanTxMetadata (data : Bytes) (outcome : PortWriteOutcome) (description : Option String)
    (input : Option HumanLineInput) (lease : HumanCommandLease) (revision : ℕ) :
    (humanTxMetadata data outcome description input lease revision).lookup
        "human_command" = some (.bool true) ∧
      (humanTxMetadata data outcome description input lease revision).lookup
        "trigger_id" = none := by
  have hwrite := lookup_writeEventMetadata (outcome.written ≠ data.length)
    (lease.mode = .cooperative) description [] none
  unfold humanTxMetadata
  simp only [List.append_assoc, List.lookup_append, hwrite.1, hwrite.2]
  refine ⟨rfl, ?_⟩
  cases input with
  | none => cases lease.interferedRunId <;> rfl
  | some input =>
      cases lease.interferedRunId <;> (simp only; split_ifs <;> rfl)

theorem acts_finishHumanCommand {operationId : Option Uuid} {description : Option String}
    {input : Option HumanLineInput} {lease : HumanCommandLease}
    {outcome : PortWriteOutcome} {s t : SlotActor} (h : s.Consistent known)
    (horigin : ∃ id, origin = .request id)
    (hview : t.view hand =
      (s.view hand).record (.portWrite origin actor data run checkedAt))
    (hknown : known actor) (hsent : (s.view hand).Sent worker data run)
    (houtcome : run.outcome = some outcome)
    (hquiet : s.trigger.activeTrigger = none ∨ (s.view hand).Gone) (hroom : s.Roomy)
    (hkind : actor.kind = .human) (hfits : Fits actor s.authority.activeRun lease) :
    Acts hand known (Wire known origin) s
      (t.finishHumanCommand actor data operationId description input lease outcome) := by
  have hwritten : run.written = outcome.written := written_of_outcome houtcome
  have hgate : s.Gated actor := gated_of_human hkind
  unfold finishHumanCommand
  split_ifs with hsome
  · have hpositive : 0 < run.written := by rwa [hwritten]
    -- bytes went out, so the worker is there and the Trigger is not
    have hidle : s.trigger.activeTrigger = none := by
      rcases hquiet with hnone | hgone
      · exact hnone
      · cases (hgone worker hsent.port).symm.trans (Sent.alive hsent hpositive)
    unfold emitHumanTx
    rw [← hwritten]
    unfold Fits at hfits
    cases hinterfered : lease.interferedRunId with
    | none =>
        rw [hinterfered] at hfits
        have hmetadata := lookup_humanTxMetadata data outcome description input
          lease 0
        exact acts_tx hand h hview hknown hsent hpositive hidle hgate (.inr ⟨hkind, hfits⟩)
          hmetadata.2 (cacheable_writeAnswer rfl)
    | some runId =>
        rw [hinterfered] at hfits
        obtain ⟨active, hrun, rfl, hother⟩ := hfits
        have hmetadata := lookup_humanTxMetadata data outcome description input
          lease (((t.noteIntervention active.id).authority.runContext.map
            RunContextState.revision).getD 0)
        exact acts_intervention hand h horigin hview hknown hsent hpositive hidle hkind hrun
          (.inl hother) hroom hmetadata.1 hmetadata.2 (cacheable_writeAnswer rfl)
  · have hnone : run.written = 0 := by omega
    refine acts_silent hand h hview hknown hsent hnone ?_ hgate (cacheable_writeAnswer rfl)
    exact hquiet.imp_right fun hgone => hgone worker hsent.port

end Finishing

theorem acts_performHumanCommand {origin : Origin} {data : Bytes}
    {operationId : Option Uuid} {description : Option String}
    {input : Option HumanLineInput} {lease : HumanCommandLease} {s : SlotActor}
    (h : s.Consistent known) (horigin : ∃ id, origin = .request id) (hknown : known actor)
    (hquiet : s.trigger.activeTrigger = none ∨ (s.view hand).Gone)
    (hkind : actor.kind = .human)
    (hready : s.port.port = none ∨ s.Roomy ∧ Fits actor s.authority.activeRun lease) :
    Acts hand known (Wire known origin) s
      (s.performHumanCommand origin actor data operationId description input lease) := by
  unfold performHumanCommand
  extract_lets asked
  cases asked.checkHumanWrite data with
  | error error => exact .refused .refl h
  | ok pacing =>
      rcases asked.writeToPort_cases hand origin actor data pacing with
        ⟨error, heq | heq⟩ | ⟨worker, run, hsent, heq⟩
      · simp only [heq]
        exact .refused .refl h
      · simp only [heq]
        exact .refused .refl h
      · simp only [heq]
        have hview : (asked.ask.record (.portWrite origin actor data run asked.ask.now)).view
            hand = (s.view hand).record
              (.portWrite origin actor data run asked.ask.now) := rfl
        rcases hready with hport | ⟨hroom, hfits⟩
        · cases hport.symm.trans hsent.port
        · cases houtcome : run.outcome with
          | none =>
              have hnone : run.written = 0 := by
                unfold WriterRun.written
                rw [houtcome]
                rfl
              exact acts_silent hand h hview hknown hsent hnone
                (hquiet.imp_right fun hgone => hgone worker hsent.port)
                (gated_of_human hkind) rfl
          | some outcome =>
              exact acts_finishHumanCommand hand h horigin hview hknown hsent houtcome
                hquiet hroom hkind hfits

theorem acts_executeSendHumanCommand {origin : Origin} {expectedGeneration : ℕ}
    {data : Bytes} {operationId : Option Uuid} {description : Option String}
    {input : Option HumanLineInput} {s : SlotActor} (h : s.Consistent known)
    (hflight : (s.view hand).FlightOk) (horigin : ∃ id, origin = .request id)
    (hknown : known actor) (hroom : s.Roomy) :
    Acts hand known (Wire known origin) s
      (s.executeSendHumanCommand origin actor expectedGeneration data operationId
        description input) := by
  unfold executeSendHumanCommand
  cases hcheck : s.checkHumanCommand actor expectedGeneration data operationId input with
  | error error => exact .refused .refl h
  | ok _ =>
      obtain ⟨hkind, hport⟩ := checkHumanCommand_ok hcheck
      obtain ⟨hpath, hconsistent, hcontext, hfits⟩ :=
        leaseForHumanCommand_spec hand h hknown hport
      cases hleased : s.leaseForHumanCommand actor with
      | mk held leased =>
          rw [hleased] at hpath hconsistent hcontext hfits
          cases leased with
          | error error => exact .refused hpath hconsistent
          | ok lease =>
              obtain ⟨hquietPath, hquietConsistent, hyielded, hquiet⟩ :=
                quietenForHumanCommand_spec hand lease.mode hconsistent
                  (hpath.flightOk hflight)
              cases hquieted : held.quietenForHumanCommand lease.mode with
              | mk quiet outcome =>
                  simp only [hquieted]
                  rw [hquieted] at hquietPath hquietConsistent hyielded hquiet
                  have hboth := hpath.trans hquietPath
                  cases outcome with
                  | error error => exact .refused hboth hquietConsistent
                  | ok _ =>
                      refine Acts.after hboth (acts_performHumanCommand hand
                        hquietConsistent horigin hknown (hquiet rfl) hkind ?_)
                      refine hyielded.symm.imp_right fun hmandate => ⟨?_, ?_⟩
                      · intro context hsome
                        refine hroom context (hcontext.symm.trans ?_)
                        exact (congrArg Mandate.runContext hmandate).symm.trans hsome
                      · have hrun : quiet.authority.activeRun = held.authority.activeRun :=
                          congrArg Mandate.activeRun hmandate
                        rw [hrun]
                        exact hfits lease rfl

end HumanCommands

end SlotActor
end SerialPlatform
