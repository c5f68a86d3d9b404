import SerialPlatform.SlotHistories
import SerialPlatform.TraceMonitor

/-!
# The gate of the Agent

A Human command in the Run of an Agent closes the Agent's gate, and only an
acknowledgement of exactly this intervention opens it.  The gate is read off the
trace alone; the actor agrees with it in every step.
-/

namespace SerialPlatform

/-- What the trace says of the active Run and of its interventions. -/
structure Gate where
  run : Option (Uuid × Actor) := none
  revision : ℕ := 0
  acknowledged : ℕ := 0
  lastHuman : Option ℕ := none

namespace Gate

/-- A command of somebody else in the active Run. -/
def Intervenes (gate : Gate) (event : TimelineEvent) : Prop :=
  event.isHumanCommand = true ∧ ∃ run, gate.run = some run ∧ event.runId = some run.1 ∧
    ∃ actor, event.actor = some actor ∧ actor.id ≠ run.2.id

open Classical in
noncomputable def hear (gate : Gate) (event : TimelineEvent) : Gate :=
  if event.kind = .runStarted then
    { run := event.runId.bind fun id => event.actor.map fun owner => (id, owner) }
  else if event.kind = .runEnded ∨ event.kind = .runAborted then
    {}
  else if gate.Intervenes event then
    { gate with
      revision := gate.revision + 1
      lastHuman := some event.seq }
  else
    gate

noncomputable def step (gate : Gate) : Effect → Gate
  | .event event => gate.hear event
  | .contextAcknowledged _ revision _ => { gate with acknowledged := revision }
  | _ => gate

/-- The actor is no Agent in its Run with an intervention to read. -/
def IsOpenFor (gate : Gate) (actor : Actor) : Prop :=
  actor.kind = .agent → ∀ run, gate.run = some run → run.2.id = actor.id →
    gate.acknowledged = gate.revision

/-- Actions pass an open gate; an acknowledgement covers the last intervention. -/
def Allows (gate : Gate) : Effect → Prop
  | .portWrite _ actor .. => gate.IsOpenFor actor
  | .portBreak _ actor _ => gate.IsOpenFor actor
  | .triggerArmed _ trigger => gate.IsOpenFor trigger.info.owner
  | .contextAcknowledged runId revision throughSeq =>
      (∃ owner, gate.run = some (runId, owner)) ∧ revision = gate.revision ∧
        ∀ seq, gate.lastHuman = some seq → seq ≤ throughSeq
  | _ => True

noncomputable def monitor : TraceMonitor Gate Effect where
  start := {}
  step := step
  Allows := Allows

theorem ignores_of_isQuiet {effect : Effect} (h : effect.isQuiet = true) :
    monitor.Ignores effect := by
  intro gate
  cases effect with
  | event event =>
      have hboth := Bool.and_eq_true_iff.mp (h : (event.kind.isQuiet && !event.isHumanCommand) = true)
      have hhuman : event.isHumanCommand = false := by
        simpa using hboth.2
      refine ⟨trivial, ?_⟩
      have hstarted : event.kind ≠ .runStarted := fun heq => by
        rw [heq] at hboth
        cases hboth.1
      have hended : ¬ (event.kind = .runEnded ∨ event.kind = .runAborted) := by
        rintro (heq | heq) <;> (rw [heq] at hboth; cases hboth.1)
      have hquiet : ¬ gate.Intervenes event := fun hcase => by
        cases hhuman.symm.trans hcase.1
      show gate.hear event = gate
      rw [hear, if_neg hstarted, if_neg hended, if_neg hquiet]
  | portWrite => cases h
  | portBreak => cases h
  | triggerArmed => cases h
  | contextAcknowledged => cases h
  | _ => exact ⟨trivial, rfl⟩

/-! ## The actor and its gate -/

/-- What the actor keeps of its Run, as the gate has it. -/
structure Shows (known : Actor → Prop) (v : View) (gate : Gate) : Prop where
  run : gate.run = v.activeRun.map fun run => (run.id, run.owner)
  owner : ∀ run, v.activeRun = some run → known run.owner
  context : ∀ run, v.activeRun = some run →
    (v.runContext.getD (SlotActor.freshRunContext run.id)).runId = run.id ∧
      (v.runContext.getD (SlotActor.freshRunContext run.id)).revision = gate.revision ∧
      (v.runContext.getD (SlotActor.freshRunContext run.id)).acknowledgedRevision =
        gate.acknowledged ∧
      (v.runContext.getD (SlotActor.freshRunContext run.id)).lastHumanCommandSeq =
        gate.lastHuman
  bounded : gate.acknowledged ≤ gate.revision
  trigger : ∀ trigger, v.activeTrigger = some trigger → trigger.pendingTerminal = none →
    gate.IsOpenFor trigger.info.owner

variable {known : Actor → Prop} {allowed : Origin → Prop} {v w : View} {gate : Gate}

theorem isOpenFor_of_run_none (h : gate.run = none) (actor : Actor) : gate.IsOpenFor actor :=
  fun _ run hrun => by
    rw [h] at hrun
    cases hrun

/-- The check of the actor is the gate. -/
theorem Shows.isOpenFor (h : Shows known v gate) {actor : Actor}
    (hgate : validateAgentRunContext actor v.activeRun v.runContext = .ok ()) :
    gate.IsOpenFor actor := by
  intro hkind run hrun howner
  rw [h.run] at hrun
  cases hactive : v.activeRun with
  | none =>
      rw [hactive] at hrun
      cases hrun
  | some active =>
      rw [hactive] at hrun
      obtain rfl := Option.some.inj hrun
      obtain ⟨hid, hrevision, hacknowledged, -⟩ := h.context active hactive
      cases hcontext : v.runContext with
      | none =>
          rw [hcontext] at hrevision hacknowledged
          exact hacknowledged.symm.trans hrevision
      | some context =>
          rw [hcontext] at hid hrevision hacknowledged
          simp only [Option.getD_some] at hid hrevision hacknowledged
          unfold validateAgentRunContext at hgate
          rw [if_neg (not_not.mpr hkind), hactive, hcontext] at hgate
          simp only at hgate
          rw [if_neg (by rintro (hne | hne) <;> contradiction)] at hgate
          split_ifs at hgate with hbehind
          have hbounded := h.bounded
          omega

/-- A step beside the Run and its context. -/
theorem Shows.beside (h : Shows known v gate) (hrun : w.activeRun = v.activeRun)
    (hcontext : w.runContext = v.runContext) (htrigger : v.Continues w) :
    Shows known w gate where
  run := by
    rw [hrun]
    exact h.run
  owner := by
    rw [hrun]
    exact h.owner
  context := by
    rw [hrun, hcontext]
    exact h.context
  bounded := h.bounded
  trigger next hnext hopen := by
    obtain ⟨trigger, hactive, hcontinues⟩ := htrigger next hnext
    rw [hcontinues.owner]
    refine h.trigger trigger hactive ?_
    by_contra hpending
    have hmarked := hcontinues.pending (Option.isSome_iff_ne_none.mpr hpending)
    rw [hopen] at hmarked
    cases hmarked

/-- No Run, and so nothing to be read. -/
theorem shows_ended (hrun : w.activeRun = none) : Shows known w {} where
  run := by
    rw [hrun]
    rfl
  owner _ hactive := by cases hrun.symm.trans hactive
  context _ hactive := by cases hrun.symm.trans hactive
  bounded := le_rfl
  trigger _ _ _ := isOpenFor_of_run_none rfl _

/-! ## Steps -/

/-- The view and its trace in one step. -/
abbrev Carries (known : Actor → Prop) : View → View → Prop :=
  monitor.Carries View.trace (Shows known) (Shows known)

theorem carries_calm (h : Calm v w) : Carries known v w := by
  obtain ⟨effects, htrace, heffects⟩ := h.extends
  have hmandate := h.mandate_eq
  have hkeeps : ∀ gate, Shows known v gate → Shows known w gate := fun gate hshows =>
    hshows.beside (congrArg Mandate.activeRun hmandate) (congrArg Mandate.runContext hmandate)
      h.continues
  refine ⟨effects, htrace, fun gate hshows => ?_⟩
  have hallowed : ∀ effects : List Effect,
      (∀ effect ∈ effects, effect.isQuiet = true ∨ v.HandsOver effect) →
      monitor.AllowsAll gate effects ∧ monitor.after gate effects = gate := by
    intro effects hall
    induction effects with
    | nil => exact ⟨trivial, rfl⟩
    | cons effect effects ih =>
        have hrest := ih fun other hmem => hall other (List.mem_cons_of_mem _ hmem)
        have hone : monitor.Allows gate effect ∧ monitor.step gate effect = gate := by
          rcases hall effect List.mem_cons_self with hquiet | hhanded
          · exact ignores_of_isQuiet hquiet gate
          · obtain ⟨trigger, kind, data, run, checkedAt, hactive, hopen, rfl⟩ := hhanded
            exact ⟨hshows.trigger trigger hactive hopen, rfl⟩
        refine ⟨⟨hone.1, ?_⟩, ?_⟩
        · rw [hone.2]
          exact hrest.1
        · show monitor.after (monitor.step gate effect) effects = gate
          rw [hone.2]
          exact hrest.2
  obtain ⟨hall, hsame⟩ := hallowed effects heffects
  refine ⟨hall, ?_⟩
  rw [hsame]
  exact hkeeps gate hshows

theorem step_event_other {event : TimelineEvent} (hkind : event.kind ≠ .runStarted)
    (hended : ¬ (event.kind = .runEnded ∨ event.kind = .runAborted))
    (hhuman : ¬ gate.Intervenes event) : monitor.step gate (.event event) = gate := by
  show gate.hear event = gate
  rw [hear, if_neg hkind, if_neg hended, if_neg hhuman]

theorem not_intervenes_of_ne {event : TimelineEvent} (hkind : event.kind ≠ .tx) :
    ¬ gate.Intervenes event := fun hcase => by
  cases (TimelineEvent.isHumanCommand_of_ne hkind).symm.trans hcase.1

theorem beside_same (h : Shows known v gate) (hrun : w.activeRun = v.activeRun)
    (hcontext : w.runContext = v.runContext) (htrigger : w.activeTrigger = v.activeTrigger)
    (hresults : w.writeResults = v.writeResults) : Shows known w gate :=
  h.beside hrun hcontext (View.Goes.of_eq htrigger hresults).continues

theorem carries_routine (h : Routine v w) : Carries known v w := by
  cases h with
  | calm h => exact carries_calm h
  | stand => exact .silent rfl fun gate hshows => beside_same hshows rfl rfl rfl rfl
  | @closeApproval pending event hpending hkind happroval hevent =>
      refine .reading (.event event) rfl (fun _ _ => trivial) fun gate hshows => ?_
      have hne : event.kind ≠ .runStarted ∧ event.kind ≠ .tx ∧
          ¬ (event.kind = .runEnded ∨ event.kind = .runAborted) := by
        rcases hkind with heq | heq | heq <;> rw [heq] <;> decide
      rw [step_event_other hne.1 hne.2.2 (not_intervenes_of_ne hne.2.1)]
      exact beside_same hshows rfl rfl rfl rfl
  | @closeRun run event hrun hkind hid hevent =>
      refine .reading (.event event) rfl (fun _ _ => trivial) fun gate hshows => ?_
      have hstarted : event.kind ≠ .runStarted := by
        rcases hkind with heq | heq <;> rw [heq] <;> decide
      have hclosed : monitor.step gate (.event event) = {} := by
        show gate.hear event = {}
        rw [hear, if_neg hstarted, if_pos hkind]
      rw [hclosed]
      exact shows_ended rfl
  | clearContext hrun =>
      refine .silent rfl fun gate hshows => ?_
      have hnone : gate.run = none := by
        rw [hshows.run, hrun]
        rfl
      exact
        { run := hshows.run
          owner := hshows.owner
          context := fun run hactive => by cases hrun.symm.trans hactive
          bounded := hshows.bounded
          trigger := fun _ _ _ => isOpenFor_of_run_none hnone _ }
  | stopPort =>
      exact .silent rfl fun gate hshows => beside_same hshows rfl rfl rfl rfl

/-- An event of another kind leaves the gate as it is. -/
theorem carries_event {event : TimelineEvent} (hkind : event.kind ≠ .runStarted)
    (hended : ¬ (event.kind = .runEnded ∨ event.kind = .runAborted))
    (hhuman : ∀ gate, Shows known v gate → ¬ gate.Intervenes event)
    (htrace : w.trace = v.trace ++ [.event event])
    (hkeeps : ∀ gate, Shows known v gate → Shows known w gate) : Carries known v w :=
  .reading _ htrace (fun _ _ => trivial) fun gate hshows => by
    rw [step_event_other hkind hended (hhuman gate hshows)]
    exact hkeeps gate hshows

section Writes

variable {origin : Origin} {actor : Actor} {data : Bytes} {run : WriterRun} {checkedAt : ℕ}

theorem carries_portWrite
    (hgate : validateAgentRunContext actor v.activeRun v.runContext = .ok ()) :
    Carries known v (v.record (.portWrite origin actor data run checkedAt)) :=
  .reading _ rfl (fun _ hshows => hshows.isOpenFor hgate)
    fun _ hshows => beside_same hshows rfl rfl rfl rfl

/-- A write outside of the Run of another actor is no intervention. -/
theorem not_intervenes_of_own {event : TimelineEvent} {written : ℕ}
    (htx : (v.record (.portWrite origin actor data run checkedAt)).IsTx event actor data written)
    (hhuman : event.isHumanCommand = true → actor.kind = .human ∧
      ∀ active, v.activeRun = some active → active.owner.id = actor.id)
    (hshows : Shows known v gate) : ¬ gate.Intervenes event := by
  rintro ⟨hcommand, run, hrun, -, other, hother, hne⟩
  rw [htx.actor] at hother
  obtain rfl := Option.some.inj hother
  rw [hshows.run] at hrun
  cases hactive : v.activeRun with
  | none =>
      rw [hactive] at hrun
      cases hrun
  | some active =>
      rw [hactive] at hrun
      obtain rfl := Option.some.inj hrun
      exact hne ((hhuman hcommand).2 active hactive).symm

theorem revision_add_one {revision : ℕ}
    (hroom : satAdd u64Max revision 1 ≤ writeIdempotencyHistoryEntries) :
    satAdd u64Max revision 1 = revision + 1 := by
  have hentries : writeIdempotencyHistoryEntries < u64Max := by decide
  unfold satAdd at hroom ⊢
  omega

/-- The intervention closes the gate. -/
theorem carries_intervention
    (hids : ∀ a b, known a → known b → a.id = b.id → a.kind = b.kind) {active : RunInfo}
    {event : TimelineEvent} {written : ℕ} (hknown : known actor)
    (hquiet : v.activeTrigger = none) (hactor : actor.kind = .human)
    (hrun : v.activeRun = some active)
    (hother : active.owner.id ≠ actor.id ∨ active.owner.kind = .agent)
    (hroom : (v.interferedContext active.id).revision ≤ writeIdempotencyHistoryEntries)
    (hhuman : event.isHumanCommand = true) (hid : event.runId = some active.id)
    (htx : (v.record (.portWrite origin actor data run checkedAt)).IsTx event actor data
      written) :
    Carries known (v.record (.portWrite origin actor data run checkedAt))
      ((({ v with runContext := some (v.interferedContext active.id) } : View).record
        (.portWrite origin actor data run checkedAt)).emit event) := by
  refine .reading (.event event) rfl (fun _ _ => trivial) fun gate hshows => ?_
  have hgate : gate.run = some (active.id, active.owner) := by
    rw [hshows.run]
    exact congrArg _ hrun
  have howner : actor.id ≠ active.owner.id := by
    intro hsame
    rcases hother with hne | hagent
    · exact hne hsame.symm
    · have hkinds := hids actor active.owner hknown (hshows.owner active hrun) hsame
      rw [hactor, hagent] at hkinds
      cases hkinds
  have hintervenes : gate.Intervenes event :=
    ⟨hhuman, _, hgate, hid, actor, htx.actor, howner⟩
  have hstep : monitor.step gate (.event event) =
      { gate with revision := gate.revision + 1, lastHuman := some event.seq } := by
    show gate.hear event = _
    rw [hear, htx.kind, if_neg EventKind.noConfusion,
      if_neg (by rintro (h | h) <;> cases h), if_pos hintervenes]
  obtain ⟨hrunId, hrevision, hacknowledged, -⟩ := hshows.context active hrun
  have hbefore : (v.runContext.getD (SlotActor.freshRunContext active.id)).revision =
      gate.revision := hrevision
  rw [hstep]
  exact
    { run := hshows.run
      owner := hshows.owner
      context := fun other hactive => by
        obtain rfl := Option.some.inj (hrun.symm.trans hactive)
        refine ⟨hrunId, ?_, hacknowledged, ?_⟩
        · exact (revision_add_one hroom).trans (congrArg (· + 1) hbefore)
        · exact congrArg some htx.next.seq.symm
      bounded := hshows.bounded.trans (Nat.le_succ _)
      trigger := fun trigger htrigger => by cases hquiet.symm.trans htrigger }

end Writes

theorem gate_of_human {actor : Actor} (hkind : actor.kind = .human) :
    validateAgentRunContext actor v.activeRun v.runContext = .ok () := by
  unfold validateAgentRunContext
  rw [hkind]
  rfl

theorem carries_wire (hids : ∀ a b, known a → known b → a.id = b.id → a.kind = b.kind)
    {origin : Origin} (h : Wire known origin v w) : Carries known v w := by
  cases h with
  | writeSilent _ _ _ _ hgate => exact carries_portWrite hgate
  | write _ _ _ hquiet hgate hhuman htx =>
      refine (carries_portWrite hgate).trans (carries_event ?_ ?_ ?_ rfl ?_)
      · rw [htx.kind]
        exact EventKind.noConfusion
      · rw [htx.kind]
        rintro (h | h) <;> cases h
      · exact fun gate hshows => not_intervenes_of_own htx hhuman
          (beside_same hshows rfl rfl rfl rfl)
      · exact fun gate hshows => beside_same hshows rfl rfl rfl rfl
  | intervene _ hknown _ _ hquiet hactor hrun hother hroom hhuman hid htx =>
      exact (carries_portWrite (gate_of_human hactor)).trans
        (carries_intervention hids hknown hquiet hactor hrun hother hroom hhuman hid htx)
  | sendBreak _ _ hgate =>
      exact .reading _ rfl (fun _ hshows => hshows.isOpenFor hgate)
        fun _ hshows => beside_same hshows rfl rfl rfl rfl

theorem carries_arm {origin : Origin} (h : Arm known origin v w) : Carries known v w := by
  cases h with
  | arm hknown htrigger hgate hnew =>
      refine .reading _ rfl (fun _ hshows => hshows.isOpenFor hgate) fun gate hshows => ?_
      exact
        { run := hshows.run
          owner := hshows.owner
          context := hshows.context
          bounded := hshows.bounded
          trigger := fun trigger hactive _ => by
            obtain rfl := Option.some.inj hactive
            exact hshows.isOpenFor hgate }

theorem carries_start (h : Start known v w) : Carries known v w := by
  cases h with
  | @startRun run event hknown hrun htrigger hkind hactor hid hevent =>
      refine .reading (.event event) rfl (fun _ _ => trivial) fun gate hshows => ?_
      have hstep : monitor.step gate (.event event) = { run := some (run.id, run.owner) } := by
        show gate.hear event = _
        rw [hear, if_pos hkind, hactor, hid]
        rfl
      have hcontext : ((if run.owner.kind = .agent then some (SlotActor.freshRunContext run.id)
          else none).getD (SlotActor.freshRunContext run.id)) =
            SlotActor.freshRunContext run.id := by
        split_ifs <;> rfl
      rw [hstep]
      exact
        { run := rfl
          owner := fun other hactive => by
            obtain rfl := Option.some.inj hactive
            exact hknown
          context := fun other hactive => by
            obtain rfl := Option.some.inj hactive
            simp only [View.emit, hcontext]
            exact ⟨rfl, rfl, rfl, rfl⟩
          bounded := le_rfl
          trigger := fun trigger hactive => by cases htrigger.symm.trans hactive }
  | startMacro => exact .silent rfl fun gate hshows => beside_same hshows rfl rfl rfl rfl

theorem carries_arrange (h : Arrange v w) : Carries known v w := by
  have hother : ∀ (kind : EventKind), kind = .runStartRequested ∨ kind = .runStartApproved →
      kind ≠ .runStarted ∧ kind ≠ .tx ∧ ¬ (kind = .runEnded ∨ kind = .runAborted) := by
    rintro kind (rfl | rfl) <;> decide
  cases h with
  | askApproval _ hkind =>
      obtain ⟨hstarted, htx, hended⟩ := hother _ (.inl hkind)
      exact carries_event hstarted hended (fun _ _ => not_intervenes_of_ne htx) rfl
        fun gate hshows => beside_same hshows rfl rfl rfl rfl
  | approve _ hkind =>
      obtain ⟨hstarted, htx, hended⟩ := hother _ (.inr hkind)
      exact carries_event hstarted hended (fun _ _ => not_intervenes_of_ne htx) rfl
        fun gate hshows => beside_same hshows rfl rfl rfl rfl
  | grantAtOnce _ hkind =>
      obtain ⟨hstarted, htx, hended⟩ := hother _ (.inr hkind)
      exact carries_event hstarted hended (fun _ _ => not_intervenes_of_ne htx) rfl
        fun gate hshows => beside_same hshows rfl rfl rfl rfl
  | @acknowledge run context throughSeq hrun hcontext hid hthrough =>
      have hkept : ∀ gate, Shows known v gate →
          context.revision = gate.revision ∧ context.lastHumanCommandSeq = gate.lastHuman := by
        intro gate hshows
        obtain ⟨-, hrevision, -, hlast⟩ := hshows.context run hrun
        rw [hcontext] at hrevision hlast
        exact ⟨hrevision, hlast⟩
      refine .reading _ rfl (fun gate hshows => ?_) fun gate hshows => ?_
      · obtain ⟨hrevision, hlast⟩ := hkept gate hshows
        refine ⟨⟨run.owner, ?_⟩, hrevision, fun seq hseq => ?_⟩
        · rw [hshows.run, hrun]
          rfl
        · rw [hlast, hseq] at hthrough
          exact hthrough
      · obtain ⟨hrevision, hlast⟩ := hkept gate hshows
        exact
          { run := hshows.run
            owner := hshows.owner
            context := fun other hactive => by
              obtain rfl := Option.some.inj (hrun.symm.trans hactive)
              exact ⟨hid, hrevision, rfl, hlast⟩
            bounded := le_of_eq hrevision
            trigger := fun trigger hactive hopen _ _ _ _ => hrevision }

theorem carries_step (hids : ∀ a b, known a → known b → a.id = b.id → a.kind = b.kind)
    (h : SlotStep known allowed v w) : Carries known v w := by
  cases h with
  | routine h => exact carries_routine h
  | opening h =>
      cases h
      exact .reading _ rfl (fun _ _ => trivial) fun gate hshows => beside_same hshows rfl rfl rfl rfl
  | wire _ _ h => exact carries_wire hids h
  | arm _ h => exact carries_arm h
  | start h => exact carries_start h
  | arrange h => exact carries_arrange h
  | keep h =>
      cases h <;>
        exact .silent rfl fun gate hshows => beside_same hshows rfl rfl rfl rfl

end Gate

namespace SlotActor

end SlotActor
end SerialPlatform
