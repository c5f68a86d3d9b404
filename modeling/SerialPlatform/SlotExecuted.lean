import SerialPlatform.SlotRequests

/-!
# Executed requests

Every step appends to the trace.  Only an action of a request touches the wire in
the name of that request, and only its result enters the executed ids.
-/

namespace SerialPlatform

/-! ## What steps append -/

/-- Kinds of events which concern neither a Run nor an approval. -/
def EventKind.isQuiet : EventKind → Bool
  | .runStartRequested | .runStartApproved => false
  | .runStartDenied | .runStartTimedOut | .runStartCancelled => false
  | .runStarted | .runEnded | .runAborted => false
  | _ => true

theorem EventKind.isQuiet_of_isPlain {kind : EventKind} (h : kind.isPlain = true) :
    kind.isQuiet = true := by
  cases kind <;> first | rfl | cases h

theorem EventKind.ne_tx_of_isPlain {kind : EventKind} (h : kind.isPlain = true) :
    kind ≠ .tx := by
  rintro rfl
  cases h

theorem isQuiet_triggerTerminalKind (status : TriggerStatus) :
    (triggerTerminalKind status).isQuiet = true := by
  cases status <;> rfl

theorem TimelineEvent.isHumanCommand_of_ne {event : TimelineEvent} (h : event.kind ≠ .tx) :
    event.isHumanCommand = false := by
  unfold isHumanCommand
  split
  · rw [decide_eq_false h, Bool.false_and]
  · rfl

/-- Effects which concern neither a Run nor an approval nor an action. -/
def Effect.isQuiet : Effect → Bool
  | .event emitted => emitted.kind.isQuiet && !emitted.isHumanCommand
  | .triggerMarked .. | .triggerWriteSettled .. => true
  | .reply .. | .macroReply _ | .adminReply _ => true
  | _ => false

theorem Effect.isQuiet_event {event : TimelineEvent} (hkind : event.kind.isQuiet = true)
    (hhuman : event.isHumanCommand = false) : (Effect.event event).isQuiet = true := by
  rw [isQuiet, hkind, hhuman]
  rfl

/-- What may follow any step: received bytes, notes, and marks of the Trigger. -/
def Effect.IsBackground : Effect → Prop
  | .event emitted =>
      (emitted.kind = .rx ∨ emitted.kind = .gap ∨ emitted.kind = .loggingDegraded) ∧
        emitted.direction ≠ .tx
  | .triggerMarked .. => True
  | _ => False

theorem Effect.IsBackground.isQuiet {effect : Effect} (h : effect.IsBackground) :
    effect.isQuiet = true := by
  cases effect with
  | event emitted =>
      have hkind := h.1
      have hboth : emitted.kind.isQuiet = true ∧ emitted.kind ≠ .tx := by
        rcases hkind with heq | heq | heq <;> rw [heq] <;> decide
      exact isQuiet_event hboth.1 (TimelineEvent.isHumanCommand_of_ne hboth.2)
  | triggerMarked => rfl
  | _ => exact h.elim

theorem Effect.isQuiet_of_isReply {effect : Effect} (h : effect.isReply = true) :
    effect.isQuiet = true := by
  cases effect with
  | reply => rfl
  | macroReply => rfl
  | adminReply => rfl
  | _ => cases h

theorem Effect.touched_of_isQuiet {effect : Effect} (h : effect.isQuiet = true) :
    effect.touched = none := by
  cases effect with
  | portWrite => cases h
  | portBreak => cases h
  | triggerArmed => cases h
  | _ => rfl

/-- A write of the Trigger, which is not stopping. -/
def View.HandsOver (v : View) (effect : Effect) : Prop :=
  ∃ trigger kind data run checkedAt, v.activeTrigger = some trigger ∧
    trigger.pendingTerminal = none ∧
    effect = .portWrite (.trigger trigger.info.id kind) trigger.info.owner data run checkedAt

namespace View

/-- The trace goes on with effects of a kind. -/
def Extends (P : Effect → Prop) (v w : View) : Prop :=
  ∃ effects, w.trace = v.trace ++ effects ∧ ∀ effect ∈ effects, P effect

variable {P Q : Effect → Prop} {u v w : View}

namespace Extends

theorem of_eq (h : w.trace = v.trace) : Extends P v w :=
  ⟨[], by rw [h, List.append_nil], fun effect hmem => by cases hmem⟩

theorem trans (huv : Extends P u v) (hvw : Extends P v w) : Extends P u w := by
  obtain ⟨first, hv, hfirst⟩ := huv
  obtain ⟨second, hw, hsecond⟩ := hvw
  refine ⟨first ++ second, by rw [hw, hv, List.append_assoc], fun effect hmem => ?_⟩
  rcases List.mem_append.mp hmem with hleft | hright
  · exact hfirst effect hleft
  · exact hsecond effect hright

theorem one {effect : Effect} (htrace : w.trace = v.trace ++ [effect]) (heffect : P effect) :
    Extends P v w :=
  ⟨[effect], htrace, fun other hmem => by rwa [List.mem_singleton.mp hmem]⟩

theorem mono (h : Extends P v w) (hmono : ∀ effect, P effect → Q effect) :
    Extends Q v w := by
  obtain ⟨effects, htrace, hall⟩ := h
  exact ⟨effects, htrace, fun effect hmem => hmono effect (hall effect hmem)⟩

end Extends

theorem touched_eq_of_none (h : Extends (fun effect => effect.touched = none) v w) :
    w.touched = v.touched := by
  obtain ⟨effects, htrace, hnone⟩ := h
  have hempty : effects.filterMap Effect.touched = [] :=
    List.filterMap_eq_nil_iff.mpr hnone
  rw [touched, touched, htrace, List.filterMap_append, hempty, List.append_nil]

/-- The trace goes on quietly. -/
abbrev ExtendsQuietly : View → View → Prop := Extends fun effect => effect.isQuiet = true

/-- The trace goes on in the background. -/
abbrev ExtendsBehind : View → View → Prop := Extends Effect.IsBackground

theorem ExtendsBehind.quietly (h : v.ExtendsBehind w) : v.ExtendsQuietly w :=
  h.mono fun _ => Effect.IsBackground.isQuiet

theorem extends_emit {event : TimelineEvent} (hkind : event.kind.isQuiet = true)
    (hhuman : event.isHumanCommand = false) (htrace : w.trace = v.trace ++ [.event event]) :
    v.ExtendsQuietly w :=
  .one htrace (Effect.isQuiet_event hkind hhuman)

theorem IsNote.background {event : TimelineEvent} (h : IsNote event) :
    (Effect.event event).IsBackground :=
  ⟨.inr (.inr h.kind), by rw [h.direction]; exact Direction.noConfusion⟩

theorem IsRx.background {event : TimelineEvent} {data : Bytes} (h : v.IsRx event data) :
    (Effect.event event).IsBackground :=
  ⟨.inl h.kind, by rw [h.direction]; exact Direction.noConfusion⟩

theorem IsGap.background {event : TimelineEvent} {count : ℕ} (h : v.IsGap event count) :
    (Effect.event event).IsBackground :=
  ⟨.inr (.inl h.kind), by rw [h.event.direction]; exact Direction.noConfusion⟩

theorem Noted.extends (h : Noted v w) : v.ExtendsBehind w := by
  cases h with
  | nil => exact .of_eq rfl
  | note hnote => exact .one rfl hnote.background

theorem extends_mark (v : View) (status : TriggerStatus) (matchedPattern : Option Bytes) :
    v.ExtendsBehind (v.mark status matchedPattern) := by
  unfold mark
  split
  · exact .of_eq rfl
  · exact .one rfl trivial

theorem extends_confirm (v : View) (kind : TriggerWriteKind) (now : ℕ) :
    v.ExtendsBehind (v.confirm kind now) := by
  unfold confirm
  split
  · exact .of_eq rfl
  · rename_i trigger _
    simp only
    split
    · exact (Extends.of_eq rfl).trans (extends_mark _ _ _)
    · exact .of_eq rfl

/-- The confirmation or the failure of a write. -/
theorem extends_reported (v : View) (result : TriggerWriteResult) (now : ℕ) :
    v.ExtendsBehind (if result.isFull then v.confirm result.kind now
      else v.mark .writeFailed none).clearBuffer := by
  split_ifs
  · exact (extends_confirm _ _ _).trans (.of_eq rfl)
  · exact (extends_mark _ _ _).trans (.of_eq rfl)

theorem Flushed.extends {queued : List PortEvent} (h : Flushed queued v w) :
    v.ExtendsBehind w := by
  induction h with
  | done => exact .of_eq rfl
  | @rx v noted flushed data rest event hrx hnoted _ ih =>
      have hemit : v.ExtendsBehind (v.emit event) := .one rfl hrx.background
      exact (hemit.trans hnoted.extends).trans ih
  | @gap v noted flushed count rest event hgap hnoted _ ih =>
      have hemit : v.ExtendsBehind ((v.skipRx count).emit event) := .one rfl hgap.background
      exact (hemit.trans hnoted.extends).trans ih
  | skip _ _ _ ih => exact ih

theorem TriggerTx.extends {trigger : ActiveTrigger} {result : TriggerWriteResult}
    (h : v.TriggerTx trigger result w) : v.ExtendsQuietly w := by
  cases h with
  | silent => exact .of_eq rfl
  | @tx event noted _ htx hhuman _ hnoted =>
      have hkind : event.kind.isQuiet = true := by
        rw [htx.kind]
        rfl
      have hemit : v.ExtendsQuietly (v.emit event) := extends_emit hkind hhuman rfl
      exact (hemit.trans hnoted.extends.quietly).trans (.of_eq rfl)

end View

/-- A calm step is quiet but for a write of the Trigger. -/
theorem Calm.extends {v w : View} (h : Calm v w) :
    v.Extends (fun effect => effect.isQuiet = true ∨ v.HandsOver effect) w := by
  have hquiet : v.ExtendsQuietly w →
      v.Extends (fun effect => effect.isQuiet = true ∨ v.HandsOver effect) w :=
    fun hextends => hextends.mono fun _ => .inl
  cases h with
  | note hplain =>
      exact hquiet (View.extends_emit (EventKind.isQuiet_of_isPlain hplain)
        (TimelineEvent.isHumanCommand_of_ne (EventKind.ne_tx_of_isPlain hplain)) rfl)
  | reply hreply => exact hquiet (.one rfl (Effect.isQuiet_of_isReply hreply))
  | mark => exact hquiet (View.extends_mark _ _ _).quietly
  | @finish trigger status _ event _ _ _ hkind =>
      have hterminal : event.kind.isQuiet = true := by
        rw [hkind]
        exact isQuiet_triggerTerminalKind status
      have hne : event.kind ≠ .tx := by
        rw [hkind]
        cases status <;> exact EventKind.noConfusion
      exact hquiet (View.extends_emit hterminal (TimelineEvent.isHumanCommand_of_ne hne) rfl)
  | @handOver trigger worker kind data run checkedAt htrigger hopen =>
      exact .one rfl (.inr ⟨trigger, kind, data, run, checkedAt, htrigger, hopen, rfl⟩)
  | @settle sent flushed trigger result rest now _ _ _ _ htx hflush =>
      have hsettled : v.ExtendsQuietly (v.settle trigger result.kind rest) := .one rfl rfl
      have hreported := sent.extends_reported result now
      exact hquiet (((hsettled.trans htx.extends).trans hreported.quietly).trans
        hflush.extends.quietly)
  | rxEmit _ _ hrx => exact hquiet (.one rfl hrx.background.isQuiet)
  | gapEmit _ _ hgap => exact hquiet (.one rfl hgap.background.isQuiet)
  | _ => exact hquiet (.of_eq rfl)

theorem Calm.touched_eq {v w : View} (h : Calm v w) : w.touched = v.touched := by
  refine View.touched_eq_of_none (h.extends.mono fun effect hcase => ?_)
  rcases hcase with hquiet | ⟨trigger, kind, data, run, checkedAt, -, -, rfl⟩
  · exact Effect.touched_of_isQuiet hquiet
  · rfl

theorem Routine.touched_eq {v w : View} (h : Routine v w) : w.touched = v.touched := by
  cases h with
  | calm h => exact h.touched_eq
  | closeApproval => exact View.touched_eq_of_none (.one rfl rfl)
  | closeRun => exact View.touched_eq_of_none (.one rfl rfl)
  | _ => rfl

theorem Routinely.touched_eq {v w : View} (h : Routinely v w) : w.touched = v.touched := by
  induction h with
  | refl => rfl
  | tail _ hstep ih => exact hstep.touched_eq.trans ih

/-! ## Touched and executed ids -/

namespace View

def executed (v : View) : Finset Uuid := v.standing.executedWriteIds.ids

/-- What is remembered of executed requests. -/
def memory (v : View) :
    ExecutedWriteIds × Table Uuid (CachedResult WriteFingerprint) × List Uuid :=
  (v.standing.executedWriteIds, v.standing.writeRequestCache, v.standing.writeRequestOrder)

variable {v w : View}

theorem touched_record (v : View) (effect : Effect) :
    (v.record effect).touched = v.touched ++ effect.touched.toList := by
  rw [touched, touched, record, List.filterMap_append]
  cases htouched : effect.touched <;> simp [htouched]

theorem touched_emit (v : View) (event : TimelineEvent) :
    (v.emit event).touched = v.touched :=
  touched_eq_of_none (.one rfl rfl)

/-- What the executed ids and the context say of each other. -/
structure Ledger (v : View) : Prop where
  limit : v.standing.executedWriteIds.limit = writeIdempotencyHistoryEntries
  room : v.executed.card ≤ writeIdempotencyHistoryEntries
  revision : ∀ context, v.runContext = some context →
    context.revision ≤ v.touched.length

theorem Ledger.of_same (h : v.Ledger)
    (hmemory : w.memory = v.memory)
    (hcontext : ∀ context, w.runContext = some context →
      context.revision = 0 ∨ ∃ before, v.runContext = some before ∧
        context.revision = before.revision)
    (htouched : v.touched.length ≤ w.touched.length) : w.Ledger where
  limit := (congrArg (fun memory => memory.1.limit) hmemory).trans h.limit
  room := (congrArg (fun memory => memory.1.ids.card) hmemory).trans_le h.room
  revision context hsome := by
    rcases hcontext context hsome with hzero | ⟨before, hbefore, hsame⟩
    · omega
    · have hle := h.revision before hbefore
      omega

end View

theorem Calm.memory_eq {v w : View} (h : Calm v w) : w.memory = v.memory :=
  congrArg (fun m : Mandate => (m.standing.executedWriteIds, m.standing.writeRequestCache,
    m.standing.writeRequestOrder)) h.mandate_eq

theorem Routine.memory_eq {v w : View} (h : Routine v w) :
    w.memory = v.memory := by
  cases h with
  | calm h => exact h.memory_eq
  | _ => rfl

theorem Routinely.memory_eq {v w : View} (h : Routinely v w) :
    w.memory = v.memory := by
  induction h with
  | refl => rfl
  | tail _ hstep ih => exact hstep.memory_eq.trans ih

theorem Routine.context {v w : View} (h : Routine v w) :
    w.runContext = v.runContext ∨ w.runContext = none := by
  cases h with
  | calm h => exact .inl (congrArg Mandate.runContext h.mandate_eq)
  | closeRun => exact .inr rfl
  | clearContext => exact .inr rfl
  | _ => exact .inl rfl

theorem Routine.ledger {v w : View} (h : Routine v w) (hl : v.Ledger) : w.Ledger := by
  refine hl.of_same h.memory_eq (fun context hcontext => ?_)
    (le_of_eq (congrArg List.length h.touched_eq.symm))
  rcases h.context with hsame | hnone
  · exact .inr ⟨context, hsame.symm.trans hcontext, rfl⟩
  · cases hnone.symm.trans hcontext

section Steps

variable {known : Actor → Prop} {allowed : Origin → Prop} {origin : Origin} {v w : View}

/-- The one id which an action may touch. -/
theorem Wire.touched_eq (h : Wire known origin v w) :
    ∃ extra, w.touched = v.touched ++ extra ∧ extra.length ≤ 1 ∧
      ∀ id ∈ extra, origin = .request id := by
  have hone : ∀ effect : Effect, (∀ id, effect.touched = some id → origin = .request id) →
      (v.record effect).touched = v.touched ++ effect.touched.toList ∧
        effect.touched.toList.length ≤ 1 ∧
        ∀ id ∈ effect.touched.toList, origin = .request id := by
    intro effect horigin
    refine ⟨v.touched_record effect, ?_, fun id hid => horigin id (Option.mem_toList.mp hid)⟩
    cases effect.touched <;> simp
  have horigin : ∀ id, origin.requestId = some id → origin = .request id := by
    intro id hid
    cases origin with
    | request other => exact congrArg _ (Option.some.inj hid)
    | _ => cases hid
  have hbreak : ∀ actor outcome id,
      (Effect.portBreak origin actor outcome).touched = some id → origin = .request id := by
    intro actor outcome id htouched
    simp only [Effect.touched] at htouched
    split_ifs at htouched
    exact horigin id htouched
  cases h with
  | writeSilent => exact ⟨_, hone _ horigin⟩
  | write =>
      rw [View.touched_emit]
      exact ⟨_, hone _ horigin⟩
  | intervene =>
      rw [View.touched_emit]
      exact ⟨_, hone _ horigin⟩
  | sendBreak => exact ⟨_, hone _ (hbreak _ _)⟩

theorem Wire.memory_eq (h : Wire known origin v w) :
    w.memory = v.memory := by
  cases h <;> rfl

theorem Arm.memory_eq (h : Arm known origin v w) :
    w.memory = v.memory := by
  cases h
  rfl

theorem Arm.touched_eq (h : Arm known origin v w) :
    w.touched = v.touched ++ origin.requestId.toList := by
  cases h
  exact View.touched_record _ _

theorem Act.memory_eq (h : Act known origin v w) :
    w.memory = v.memory := by
  cases h with
  | wire h => exact h.memory_eq
  | arm h => exact h.memory_eq

/-- An action touches at most the one id of its origin. -/
theorem Act.touched_eq {requestId : Uuid} (h : Act known (.request requestId) v w) :
    w.touched = v.touched ∨ w.touched = v.touched ++ [requestId] := by
  cases h with
  | wire h =>
      obtain ⟨extra, htouched, hlength, horigin⟩ := h.touched_eq
      cases extra with
      | nil => exact .inl (htouched.trans (List.append_nil _))
      | cons id rest =>
          have hrest : rest = [] := by
            rw [List.length_cons] at hlength
            exact List.eq_nil_of_length_eq_zero (by omega)
          have hid : requestId = id := by
            have hsame := horigin id List.mem_cons_self
            injection hsame
          rw [hrest, ← hid] at htouched
          exact .inr htouched
  | arm h => exact .inr h.touched_eq

/-- Only a Human who intervenes raises the revision, under the id of the request. -/
theorem Wire.ledger (h : Wire known origin v w) (hl : v.Ledger) : w.Ledger := by
  have hle : v.touched.length ≤ w.touched.length := by
    obtain ⟨extra, htouched, -⟩ := h.touched_eq
    rw [htouched, List.length_append]
    exact Nat.le_add_right _ _
  cases h with
  | @intervene actor worker data run checkedAt active event horigin =>
      obtain ⟨id, rfl⟩ := horigin
      refine ⟨hl.limit, hl.room, fun context hcontext => ?_⟩
      obtain rfl := Option.some.inj hcontext
      have htouched : (({ v with runContext := some (v.interferedContext active.id) } :
          View).record (.portWrite (.request id) actor data run checkedAt)).touched =
          v.touched ++ [id] := View.touched_record _ _
      rw [View.touched_emit, htouched, List.length_append, List.length_singleton]
      have hadd : ∀ revision, satAdd u64Max revision 1 ≤ revision + 1 :=
        fun revision => min_le_left _ _
      cases hbefore : v.runContext with
      | none =>
          simp only [View.interferedContext, hbefore, Option.getD_none,
            SlotActor.freshRunContext]
          have hone := hadd 0
          omega
      | some before =>
          simp only [View.interferedContext, hbefore, Option.getD_some]
          have hone := hadd before.revision
          have hbound := hl.revision before hbefore
          omega
  | _ => exact hl.of_same rfl (fun context hcontext => .inr ⟨context, hcontext, rfl⟩) hle

theorem Keep.ledger (h : Keep v w) (hl : v.Ledger) : w.Ledger := by
  cases h with
  | configure => exact ⟨hl.limit, hl.room, hl.revision⟩
  | remember requestId cache order hroom =>
      refine ⟨hl.limit, ?_, hl.revision⟩
      have hcard := Finset.card_insert_le requestId v.standing.executedWriteIds.ids
      rw [hl.limit] at hroom
      exact hcard.trans hroom

theorem SlotStep.ledger (h : SlotStep known allowed v w) (hl : v.Ledger) : w.Ledger := by
  cases h with
  | routine h => exact h.ledger hl
  | opening h =>
      cases h
      exact hl.of_same rfl (fun context hcontext => .inr ⟨context, hcontext, rfl⟩)
        (le_of_eq (congrArg List.length (View.touched_eq_of_none (.one rfl rfl)).symm))
  | wire _ _ h => exact h.ledger hl
  | arm _ h =>
      refine hl.of_same h.memory_eq (fun context hcontext => ?_) ?_
      · cases h
        exact .inr ⟨context, hcontext, rfl⟩
      · rw [h.touched_eq, List.length_append]
        exact Nat.le_add_right _ _
  | start h =>
      cases h with
      | @startRun run event =>
          refine hl.of_same rfl (fun context hcontext => .inl ?_)
            (le_of_eq (congrArg List.length (View.touched_eq_of_none (.one rfl rfl)).symm))
          have hstart : (if run.owner.kind = .agent then
              some (SlotActor.freshRunContext run.id) else none) = some context := hcontext
          split_ifs at hstart
          obtain rfl := Option.some.inj hstart
          rfl
      | startMacro =>
          exact hl.of_same rfl (fun context hcontext => .inr ⟨context, hcontext, rfl⟩) le_rfl
  | arrange h =>
      have htouched : w.touched = v.touched := by
        cases h <;> exact View.touched_eq_of_none (.one rfl rfl)
      refine hl.of_same (by cases h <;> rfl) (fun context hcontext => .inr ?_)
        (le_of_eq (congrArg List.length htouched.symm))
      cases h with
      | @acknowledge run before throughSeq _ hbefore =>
          obtain rfl := Option.some.inj hcontext
          exact ⟨before, hbefore, rfl⟩
      | _ => exact ⟨context, hcontext, rfl⟩
  | keep h => exact h.ledger hl

theorem Reaches.ledger (h : Reaches known allowed v w) (hl : v.Ledger) : w.Ledger := by
  induction h with
  | refl => exact hl
  | tail _ hstep ih => exact hstep.ledger ih

/-- A path touches only what its origins allow, and forgets no executed id. -/
structure View.Remembers (allowed : Origin → Prop) (v w : View) : Prop where
  touched : ∃ extra, w.touched = v.touched ++ extra ∧ ∀ id ∈ extra, allowed (.request id)
  executed : v.executed ⊆ w.executed

theorem SlotStep.remembers (h : SlotStep known allowed v w) : v.Remembers allowed w := by
  have hnone : w.touched = v.touched →
      ∃ extra, w.touched = v.touched ++ extra ∧ ∀ id ∈ extra, allowed (.request id) :=
    fun htouched => ⟨[], htouched.trans (List.append_nil _).symm, fun id hid => by cases hid⟩
  have hsame : w.memory = v.memory → v.executed ⊆ w.executed := by
    intro heq
    exact (congrArg (fun memory => memory.1.ids) heq).ge
  cases h with
  | routine h => exact ⟨hnone h.touched_eq, hsame h.memory_eq⟩
  | opening h =>
      cases h
      exact ⟨hnone (View.touched_eq_of_none (.one rfl rfl)), hsame rfl⟩
  | wire _ hallowed h =>
      obtain ⟨extra, htouched, -, horigin⟩ := h.touched_eq
      exact ⟨⟨extra, htouched, fun id hid => horigin id hid ▸ hallowed⟩, hsame h.memory_eq⟩
  | @arm origin hallowed h =>
      refine ⟨⟨_, h.touched_eq, fun id hid => ?_⟩, hsame h.memory_eq⟩
      cases origin with
      | request other =>
          obtain rfl : id = other := List.mem_singleton.mp hid
          exact hallowed
      | _ => cases hid
  | start h =>
      cases h with
      | startRun => exact ⟨hnone (View.touched_eq_of_none (.one rfl rfl)), hsame rfl⟩
      | startMacro => exact ⟨hnone rfl, hsame rfl⟩
  | arrange h =>
      cases h <;> exact ⟨hnone (View.touched_eq_of_none (.one rfl rfl)), hsame rfl⟩
  | keep h =>
      cases h with
      | configure => exact ⟨hnone rfl, hsame rfl⟩
      | remember requestId => exact ⟨hnone rfl, Finset.subset_insert requestId _⟩

theorem Reaches.remembers (h : Reaches known allowed v w) : v.Remembers allowed w := by
  induction h with
  | refl => exact ⟨⟨[], (List.append_nil _).symm, fun id hid => by cases hid⟩, subset_rfl⟩
  | tail _ hstep ih =>
      obtain ⟨first, hfirst, hfirstAllowed⟩ := ih.touched
      obtain ⟨second, hsecond, hsecondAllowed⟩ := hstep.remembers.touched
      refine ⟨⟨first ++ second, ?_, fun id hid => ?_⟩,
        ih.executed.trans hstep.remembers.executed⟩
      · rw [hsecond, hfirst, List.append_assoc]
      · rcases List.mem_append.mp hid with hleft | hright
        · exact hfirstAllowed id hleft
        · exact hsecondAllowed id hright

end Steps

end SerialPlatform
