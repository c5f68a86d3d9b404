import SerialPlatform.SlotMandate

/-!
# The write in flight

A Trigger has at most one write in flight, and exactly its result is awaited.
Only while a write is in flight does received data wait in the buffer.
-/

namespace SerialPlatform

/-- What a Trigger keeps whatever happens to its schedule. -/
structure ActiveTrigger.Kept (trigger next : ActiveTrigger) : Prop where
  id : next.info.id = trigger.info.id
  owner : next.info.owner = trigger.info.owner
  spec : next.info.spec = trigger.info.spec
  deadline : next.deadline = trigger.deadline
  writeInFlight : next.writeInFlight = trigger.writeInFlight
  bufferedRx : next.bufferedRx = trigger.bufferedRx

namespace ActiveTrigger

theorem Kept.trans {a b c : ActiveTrigger} (hab : a.Kept b) (hbc : b.Kept c) :
    a.Kept c where
  id := hbc.id.trans hab.id
  owner := hbc.owner.trans hab.owner
  spec := hbc.spec.trans hab.spec
  deadline := hbc.deadline.trans hab.deadline
  writeInFlight := hbc.writeInFlight.trans hab.writeInFlight
  bufferedRx := hbc.bufferedRx.trans hab.bufferedRx

theorem kept_markStopping (trigger : ActiveTrigger) (status : TriggerStatus)
    (matchedPattern : Option Bytes) :
    trigger.Kept (trigger.markStopping status matchedPattern) :=
  ⟨rfl, rfl, rfl, rfl, rfl, rfl⟩

theorem kept_observeRx (trigger : ActiveTrigger) (data : Bytes) (now : ℕ) :
    trigger.Kept (trigger.observeRx data now).1 := by
  unfold observeRx
  simp only
  split
  · exact ⟨rfl, rfl, rfl, rfl, rfl, rfl⟩
  · split
    · split_ifs <;> exact ⟨rfl, rfl, rfl, rfl, rfl, rfl⟩
    · exact ⟨rfl, rfl, rfl, rfl, rfl, rfl⟩

theorem kept_confirmWrite (trigger : ActiveTrigger) (kind : TriggerWriteKind) (now : ℕ) :
    trigger.Kept (trigger.confirmWrite kind now).1 := by
  cases kind with
  | initial =>
      simp only [confirmWrite, confirmInitialWrite]
      split_ifs <;> exact ⟨rfl, rfl, rfl, rfl, rfl, rfl⟩
  | action =>
      simp only [confirmWrite, confirmActionWrite]
      split_ifs <;> exact ⟨rfl, rfl, rfl, rfl, rfl, rfl⟩

theorem kept_recordTx (trigger : ActiveTrigger) (eventSeq written : ℕ) :
    trigger.Kept (trigger.recordTx eventSeq written) :=
  ⟨rfl, rfl, rfl, rfl, rfl, rfl⟩

theorem pendingTerminal_markStopping (trigger : ActiveTrigger) (status : TriggerStatus)
    (matchedPattern : Option Bytes) :
    (trigger.markStopping status matchedPattern).pendingTerminal.isSome = true := by
  unfold markStopping
  cases hpending : trigger.pendingTerminal with
  | none => rfl
  | some current =>
      simp only
      split_ifs <;> rfl

theorem pendingTerminal_observeRx (trigger : ActiveTrigger) (data : Bytes) (now : ℕ) :
    (trigger.observeRx data now).1.pendingTerminal = trigger.pendingTerminal := by
  unfold observeRx
  simp only
  split
  · rfl
  · split
    · split_ifs <;> rfl
    · rfl

theorem pendingTerminal_confirmWrite (trigger : ActiveTrigger) (kind : TriggerWriteKind)
    (now : ℕ) :
    (trigger.confirmWrite kind now).1.pendingTerminal = trigger.pendingTerminal := by
  cases kind with
  | initial =>
      simp only [confirmWrite, confirmInitialWrite]
      split_ifs <;> rfl
  | action =>
      simp only [confirmWrite, confirmActionWrite]
      split_ifs <;> rfl

end ActiveTrigger

namespace View

/-! ## Small changes of the view -/

/-- The Trigger of a view goes on under a new record. -/
structure Goes (v w : View) : Prop where
  writeResults : w.writeResults = v.writeResults
  bare : v.activeTrigger = none → w.activeTrigger = none
  active : ∀ trigger, v.activeTrigger = some trigger →
    ∃ next, w.activeTrigger = some next ∧ trigger.Kept next ∧
      (trigger.pendingTerminal.isSome = true → next.pendingTerminal.isSome = true)

theorem Goes.refl (v : View) : v.Goes v :=
  ⟨rfl, id, fun trigger h => ⟨trigger, h, ⟨rfl, rfl, rfl, rfl, rfl, rfl⟩, id⟩⟩

theorem Goes.trans {u v w : View} (huv : u.Goes v) (hvw : v.Goes w) : u.Goes w := by
  refine ⟨hvw.writeResults.trans huv.writeResults, fun h => hvw.bare (huv.bare h),
    fun trigger htrigger => ?_⟩
  obtain ⟨mid, hmid, hkept, hpending⟩ := huv.active trigger htrigger
  obtain ⟨next, hnext, hkept', hpending'⟩ := hvw.active mid hmid
  exact ⟨next, hnext, hkept.trans hkept', fun h => hpending' (hpending h)⟩

/-- A view with the same Trigger and the same results. -/
theorem Goes.of_eq {v w : View} (htrigger : w.activeTrigger = v.activeTrigger)
    (hresults : w.writeResults = v.writeResults) : v.Goes w :=
  ⟨hresults, fun h => htrigger.trans h,
    fun trigger h => ⟨trigger, htrigger.trans h, ⟨rfl, rfl, rfl, rfl, rfl, rfl⟩, id⟩⟩

theorem goes_set {v : View} {trigger next : ActiveTrigger}
    (htrigger : v.activeTrigger = some trigger) (hkept : trigger.Kept next)
    (hpending : trigger.pendingTerminal.isSome = true →
      next.pendingTerminal.isSome = true) :
    v.Goes { v with activeTrigger := some next } := by
  refine ⟨rfl, fun h => ?_, fun other hother => ?_⟩
  · rw [htrigger] at h
    cases h
  · obtain rfl := Option.some.inj (htrigger.symm.trans hother)
    exact ⟨next, rfl, hkept, hpending⟩

theorem goes_mark (v : View) (status : TriggerStatus) (matchedPattern : Option Bytes) :
    v.Goes (v.mark status matchedPattern) := by
  unfold mark
  cases htrigger : v.activeTrigger with
  | none => exact .refl v
  | some trigger =>
      exact (goes_set htrigger (trigger.kept_markStopping status matchedPattern)
        (fun _ => trigger.pendingTerminal_markStopping status matchedPattern)).trans
        (.of_eq rfl rfl)

theorem goes_confirm (v : View) (kind : TriggerWriteKind) (now : ℕ) :
    v.Goes (v.confirm kind now) := by
  unfold confirm
  cases htrigger : v.activeTrigger with
  | none => exact .refl v
  | some trigger =>
      have hset := goes_set htrigger (trigger.kept_confirmWrite kind now)
        (fun h => by rwa [trigger.pendingTerminal_confirmWrite kind now])
      simp only
      cases (trigger.confirmWrite kind now).2 with
      | none => exact hset
      | some status => exact hset.trans (goes_mark _ _ _)

theorem Noted.goes {v w : View} (h : Noted v w) : v.Goes w := by
  cases h <;> exact .of_eq rfl rfl

theorem TriggerTx.goes {v w : View} {trigger : ActiveTrigger}
    {result : TriggerWriteResult} (htrigger : v.activeTrigger = some trigger)
    (h : v.TriggerTx trigger result w) : v.Goes w := by
  cases h with
  | silent => exact .refl v
  | tx _ _ _ _ hnoted =>
      refine ⟨hnoted.goes.writeResults, fun hnone => ?_, fun other hother => ?_⟩
      · rw [htrigger] at hnone
        cases hnone
      · obtain rfl := Option.some.inj (htrigger.symm.trans hother)
        exact ⟨_, rfl, trigger.kept_recordTx _ _, id⟩

theorem goes_emit (v : View) (event : TimelineEvent) : v.Goes (v.emit event) :=
  .of_eq rfl rfl

theorem goes_skipRx (v : View) (count : ℕ) : v.Goes (v.skipRx count) := .of_eq rfl rfl

theorem Flushed.goes {queued : List PortEvent} {v w : View} (h : Flushed queued v w) :
    v.Goes w := by
  induction h with
  | done => exact .refl _
  | rx _ hnoted _ ih => exact ((goes_emit _ _).trans hnoted.goes).trans ih
  | gap _ hnoted _ ih =>
      exact (((goes_skipRx _ _).trans (goes_emit _ _)).trans hnoted.goes).trans ih
  | skip _ _ _ ih => exact ih

/-! ## Flights -/

/-- The results which are awaited are those of the writes in flight. -/
structure FlightOk (v : View) : Prop where
  bare : v.activeTrigger = none → v.writeResults = []
  idle : ∀ trigger, v.activeTrigger = some trigger → trigger.writeInFlight = none →
    v.writeResults = [] ∧ trigger.bufferedRx = {}
  flying : ∀ trigger kind, v.activeTrigger = some trigger →
    trigger.writeInFlight = some kind →
    ∃ result, v.writeResults = [result] ∧ result.triggerId = trigger.info.id ∧
      result.kind = kind
  buffered : ∀ trigger, v.activeTrigger = some trigger →
    ∀ event ∈ trigger.bufferedRx.events, ∃ data, event = .rx data

theorem FlightOk.goes {v w : View} (h : v.FlightOk) (hgoes : v.Goes w) : w.FlightOk := by
  cases hactive : v.activeTrigger with
  | none =>
      have hnone := hgoes.bare hactive
      exact {
        bare := fun _ => hgoes.writeResults.trans (h.bare hactive)
        idle := fun trigger htrigger => by cases hnone.symm.trans htrigger
        flying := fun trigger kind htrigger => by cases hnone.symm.trans htrigger
        buffered := fun trigger htrigger => by cases hnone.symm.trans htrigger }
  | some trigger =>
      obtain ⟨next, hnext, hkept, -⟩ := hgoes.active trigger hactive
      refine ⟨fun hnone => ?_, fun other hother hidle => ?_,
        fun other kind hother hflight => ?_, fun other hother => ?_⟩
      · cases hnext.symm.trans hnone
      · obtain rfl := Option.some.inj (hnext.symm.trans hother)
        rw [hgoes.writeResults, hkept.bufferedRx]
        exact h.idle trigger hactive (hkept.writeInFlight.symm.trans hidle)
      · obtain rfl := Option.some.inj (hnext.symm.trans hother)
        rw [hgoes.writeResults, hkept.id]
        exact h.flying trigger kind hactive (hkept.writeInFlight.symm.trans hflight)
      · obtain rfl := Option.some.inj (hnext.symm.trans hother)
        rw [hkept.bufferedRx]
        exact h.buffered trigger hactive

/-- A view without Trigger and results. -/
theorem FlightOk.of_none {v : View} (htrigger : v.activeTrigger = none)
    (hresults : v.writeResults = []) : v.FlightOk where
  bare _ := hresults
  idle trigger h := by cases htrigger.symm.trans h
  flying trigger kind h := by cases htrigger.symm.trans h
  buffered trigger h := by cases htrigger.symm.trans h

/-- A view whose Trigger is idle. -/
theorem FlightOk.of_idle {v : View} {trigger : ActiveTrigger}
    (htrigger : v.activeTrigger = some trigger) (hidle : trigger.writeInFlight = none)
    (hresults : v.writeResults = []) (hbuffered : trigger.bufferedRx = {}) :
    v.FlightOk where
  bare h := by cases htrigger.symm.trans h
  idle other h _ := by
    obtain rfl := Option.some.inj (htrigger.symm.trans h)
    exact ⟨hresults, hbuffered⟩
  flying other kind h hflight := by
    obtain rfl := Option.some.inj (htrigger.symm.trans h)
    cases hidle.symm.trans hflight
  buffered other h := by
    obtain rfl := Option.some.inj (htrigger.symm.trans h)
    rw [hbuffered]
    exact fun event hevent => by cases hevent

/-- A view whose Trigger has one write in flight. -/
theorem FlightOk.of_flying {v : View} {trigger : ActiveTrigger}
    {result : TriggerWriteResult} (htrigger : v.activeTrigger = some trigger)
    (hflight : trigger.writeInFlight = some result.kind)
    (hresults : v.writeResults = [result]) (hid : result.triggerId = trigger.info.id)
    (hbuffered : ∀ event ∈ trigger.bufferedRx.events, ∃ data, event = .rx data) :
    v.FlightOk where
  bare h := by cases htrigger.symm.trans h
  idle other h hidle := by
    obtain rfl := Option.some.inj (htrigger.symm.trans h)
    cases hflight.symm.trans hidle
  flying other kind h hkind := by
    obtain rfl := Option.some.inj (htrigger.symm.trans h)
    exact ⟨result, hresults, hid, Option.some.inj (hflight.symm.trans hkind)⟩
  buffered other h := by
    obtain rfl := Option.some.inj (htrigger.symm.trans h)
    exact hbuffered

theorem pushRx_events {buffer : TriggerRxAuditBuffer} {data : Bytes}
    (h : ∀ event ∈ buffer.events, ∃ data, event = .rx data) :
    ∀ event ∈ (buffer.pushRx data).1.events, ∃ data, event = .rx data := by
  intro event hevent
  unfold TriggerRxAuditBuffer.pushRx TriggerRxAuditBuffer.pushRxWithLimit at hevent
  split_ifs at hevent
  · rcases List.mem_append.mp hevent with hold | hnew
    · exact h event hold
    · exact ⟨data, List.mem_singleton.mp hnew⟩
  · exact h event hevent

/-- The write which was settled is no longer awaited. -/
theorem FlightOk.settle {v sent flushed : View} {trigger : ActiveTrigger}
    {result : TriggerWriteResult} {rest : List TriggerWriteResult} {now : ℕ}
    (h : v.FlightOk) (htrigger : v.activeTrigger = some trigger)
    (hresults : v.writeResults = result :: rest)
    (hflight : trigger.writeInFlight = some result.kind)
    (htx : (v.settle trigger result.kind rest).TriggerTx
      { trigger with writeInFlight := none } result sent)
    (hflush : Flushed trigger.bufferedRx.queued
      (if result.isFull then sent.confirm result.kind now
        else sent.mark .writeFailed none).clearBuffer flushed) :
    flushed.FlightOk := by
  obtain ⟨awaited, hawaited, -⟩ := h.flying trigger result.kind htrigger hflight
  have hrest : rest = [] := by
    rw [hresults] at hawaited
    exact (List.cons.inj hawaited).2
  have hsent := htx.goes rfl
  have hmarked : sent.Goes (if result.isFull then sent.confirm result.kind now
      else sent.mark .writeFailed none) := by
    split_ifs
    · exact goes_confirm _ _ _
    · exact goes_mark _ _ _
  obtain ⟨next, hnext, hkept, -⟩ := (hsent.trans hmarked).active
    { trigger with writeInFlight := none } rfl
  have hlast := (hsent.trans hmarked).writeResults
  refine FlightOk.goes ?_ hflush.goes
  refine @FlightOk.of_idle _ { next with bufferedRx := {} } ?_
    hkept.writeInFlight ?_ rfl
  · unfold clearBuffer
    rw [hnext]
    rfl
  · exact hlast.trans hrest

end View

/-- Calm steps keep the results and the writes in flight together. -/
theorem Calm.flightOk {v w : View} (h : Calm v w) (hok : v.FlightOk) : w.FlightOk := by
  cases h with
  | note => exact hok.goes (View.goes_emit _ _)
  | reply => exact hok.goes (.of_eq rfl rfl)
  | mark => exact hok.goes (View.goes_mark _ _ _)
  | observe data now htrigger =>
      exact hok.goes (View.goes_set htrigger (ActiveTrigger.kept_observeRx _ data now)
        (fun h => by rwa [ActiveTrigger.pendingTerminal_observeRx]))
  | unschedule htrigger =>
      exact hok.goes (View.goes_set htrigger ⟨rfl, rfl, rfl, rfl, rfl, rfl⟩ id)
  | finish htrigger hidle =>
      exact .of_none rfl (hok.idle _ htrigger hidle).1
  | @handOver trigger worker kind data run checkedAt htrigger hopen hidle =>
      obtain ⟨hresults, hbuffered⟩ := hok.idle trigger htrigger hidle
      have hevents : ∀ event ∈ (trigger.writeHanded kind).bufferedRx.events,
          ∃ data, event = .rx data := by
        have hsame : (trigger.writeHanded kind).bufferedRx = trigger.bufferedRx := by
          cases kind <;> rfl
        rw [hsame, hbuffered]
        exact fun event hevent => by cases hevent
      have hid : (trigger.writeHanded kind).info.id = trigger.info.id := by
        cases kind <;> rfl
      have hflight : (trigger.writeHanded kind).writeInFlight = some kind := by
        cases kind <;> rfl
      exact .of_flying rfl hflight (congrArg (· ++ _) hresults) hid.symm hevents
  | settle now htrigger hresults _ hflight htx hflush =>
      exact hok.settle htrigger hresults hflight htx hflush
  | @discard result rest hresults hstale =>
      cases hactive : v.activeTrigger with
      | none =>
          rw [hok.bare hactive] at hresults
          cases hresults
      | some trigger =>
          cases hflight : trigger.writeInFlight with
          | none =>
              rw [(hok.idle trigger hactive hflight).1] at hresults
              cases hresults
          | some kind =>
              obtain ⟨awaited, hawaited, hid, hkind⟩ :=
                hok.flying trigger kind hactive hflight
              rw [hresults] at hawaited
              obtain ⟨rfl, -⟩ := List.cons.inj hawaited
              rcases hstale trigger hactive with hne | hne
              · exact absurd hid.symm hne
              · exact absurd (hflight.trans (congrArg some hkind.symm)) hne
  | rxEmit => exact hok.goes (.of_eq rfl rfl)
  | @rxBuffer trigger data rest hhand htrigger hflight =>
      obtain ⟨kind, hkind⟩ := Option.isSome_iff_exists.mp hflight
      obtain ⟨result, hresults, hid, rfl⟩ := hok.flying trigger kind htrigger hkind
      exact .of_flying rfl hkind hresults hid
        (View.pushRx_events (hok.buffered trigger htrigger))
  | gapEmit => exact hok.goes (.of_eq rfl rfl)
  | @gapBuffer trigger count rest hhand htrigger hflight =>
      obtain ⟨kind, hkind⟩ := Option.isSome_iff_exists.mp hflight
      obtain ⟨result, hresults, hid, rfl⟩ := hok.flying trigger kind htrigger hkind
      exact .of_flying rfl hkind hresults hid (hok.buffered trigger htrigger)
  | receive => exact hok.goes (.of_eq rfl rfl)
  | workersGone => exact hok.goes (.of_eq rfl rfl)
  | macroMoves => exact hok.goes (.of_eq rfl rfl)

theorem Routine.flightOk {v w : View} (h : Routine v w) (hok : v.FlightOk) :
    w.FlightOk := by
  cases h with
  | calm h => exact h.flightOk hok
  | _ => exact hok.goes (.of_eq rfl rfl)

theorem Calmly.flightOk {v w : View} (h : Calmly v w) (hok : v.FlightOk) :
    w.FlightOk := by
  induction h with
  | refl => exact hok
  | tail _ hstep ih => exact hstep.flightOk ih

theorem Routinely.flightOk {v w : View} (h : Routinely v w) (hok : v.FlightOk) :
    w.FlightOk := by
  induction h with
  | refl => exact hok
  | tail _ hstep ih => exact hstep.flightOk ih

/-- Actions keep it too: a new Trigger has no write in flight. -/
theorem SlotStep.flightOk {known : Actor → Prop} {allowed : Origin → Prop} {v w : View}
    (h : SlotStep known allowed v w) (hok : v.FlightOk) : w.FlightOk := by
  cases h with
  | routine h => exact h.flightOk hok
  | opening h =>
      cases h
      exact hok.goes (.of_eq rfl rfl)
  | wire _ _ h =>
      cases h <;> exact hok.goes (.of_eq rfl rfl)
  | arm _ h =>
      cases h with
      | arm hknown htrigger hgate hnew =>
          exact .of_idle rfl hnew.writeInFlight (hok.bare htrigger) hnew.bufferedRx
  | start h => cases h <;> exact hok.goes (.of_eq rfl rfl)
  | arrange h => cases h <;> exact hok.goes (.of_eq rfl rfl)
  | keep h => cases h <;> exact hok.goes (.of_eq rfl rfl)

theorem Reaches.flightOk {known : Actor → Prop} {allowed : Origin → Prop} {v w : View}
    (h : Reaches known allowed v w) (hok : v.FlightOk) : w.FlightOk := by
  induction h with
  | refl => exact hok
  | tail _ hstep ih => exact hstep.flightOk ih

/-! ## Stopping Triggers -/

/-- No Trigger of the view writes any more. -/
def View.Quelled (v : View) : Prop :=
  ∀ trigger, v.activeTrigger = some trigger → trigger.pendingTerminal.isSome = true

theorem View.Quelled.goes {v w : View} (h : v.Quelled) (hgoes : v.Goes w) :
    w.Quelled := by
  intro trigger htrigger
  cases hactive : v.activeTrigger with
  | none => cases (hgoes.bare hactive).symm.trans htrigger
  | some before =>
      obtain ⟨next, hnext, -, hpending⟩ := hgoes.active before hactive
      obtain rfl := Option.some.inj (hnext.symm.trans htrigger)
      exact hpending (h before hactive)

/-- A marked Trigger stays marked, and no routine step arms another one. -/
theorem Calm.quelled {v w : View} (h : Calm v w) (hquelled : v.Quelled) : w.Quelled := by
  cases h with
  | note => exact hquelled.goes (View.goes_emit _ _)
  | reply => exact hquelled.goes (.of_eq rfl rfl)
  | mark => exact hquelled.goes (View.goes_mark _ _ _)
  | observe data now htrigger =>
      exact hquelled.goes (View.goes_set htrigger (ActiveTrigger.kept_observeRx _ data now)
        (fun h => by rwa [ActiveTrigger.pendingTerminal_observeRx]))
  | unschedule htrigger =>
      exact hquelled.goes (View.goes_set htrigger ⟨rfl, rfl, rfl, rfl, rfl, rfl⟩ id)
  | finish => exact fun trigger htrigger => by cases htrigger
  | handOver htrigger hopen =>
      have hmarked := hquelled _ htrigger
      rw [hopen] at hmarked
      cases hmarked
  | @settle sent _ trigger result rest now htrigger _ _ _ htx hflush =>
      have hsent := htx.goes rfl
      have hmarked : sent.Goes (if result.isFull then sent.confirm result.kind now
          else sent.mark .writeFailed none) := by
        split_ifs
        · exact View.goes_confirm _ _ _
        · exact View.goes_mark _ _ _
      obtain ⟨next, hnext, -, hpending⟩ := (hsent.trans hmarked).active
        { trigger with writeInFlight := none } rfl
      refine View.Quelled.goes (fun last hlast => ?_) hflush.goes
      unfold View.clearBuffer at hlast
      rw [hnext] at hlast
      obtain rfl := Option.some.inj hlast
      exact hpending (hquelled trigger htrigger)
  | discard => exact fun trigger htrigger => hquelled trigger htrigger
  | rxEmit => exact hquelled.goes (.of_eq rfl rfl)
  | @rxBuffer trigger data rest hhand htrigger hflight =>
      intro other hother
      obtain rfl := Option.some.inj hother
      exact hquelled trigger htrigger
  | gapEmit => exact hquelled.goes (.of_eq rfl rfl)
  | @gapBuffer trigger count rest hhand htrigger hflight =>
      intro other hother
      obtain rfl := Option.some.inj hother
      exact hquelled trigger htrigger
  | receive => exact hquelled.goes (.of_eq rfl rfl)
  | workersGone => exact hquelled.goes (.of_eq rfl rfl)
  | macroMoves => exact hquelled.goes (.of_eq rfl rfl)

theorem Routine.quelled {v w : View} (h : Routine v w) (hquelled : v.Quelled) :
    w.Quelled := by
  cases h with
  | calm h => exact h.quelled hquelled
  | _ => exact hquelled.goes (.of_eq rfl rfl)

theorem Routinely.quelled {v w : View} (h : Routinely v w) (hquelled : v.Quelled) :
    w.Quelled := by
  induction h with
  | refl => exact hquelled
  | tail _ hstep ih => exact hstep.quelled ih

/-! ## What is still to be delivered -/

/-- The events and results which the workers still deliver. -/
def View.backlog (v : View) : ℕ := (v.portEvents.getD []).length + v.writeResults.length

theorem View.backlog_settled {v sent flushed : View} {trigger : ActiveTrigger}
    {result : TriggerWriteResult} {rest : List TriggerWriteResult} {now : ℕ}
    {queued : List PortEvent} (hresults : v.writeResults = result :: rest)
    (htx : (v.settle trigger result.kind rest).TriggerTx
      { trigger with writeInFlight := none } result sent)
    (hflush : View.Flushed queued
      (if result.isFull then sent.confirm result.kind now
        else sent.mark .writeFailed none).clearBuffer flushed) :
    flushed.backlog < v.backlog := by
  have hevents : flushed.portEvents = v.portEvents :=
    congrArg Surroundings.portEvents (View.around_settled htx hflush)
  have hsent : sent.writeResults = rest := (htx.goes rfl).writeResults
  have hmarked : (if result.isFull then sent.confirm result.kind now
      else sent.mark .writeFailed none).writeResults = rest := by
    split_ifs
    · exact (View.goes_confirm _ _ _).writeResults.trans hsent
    · exact (View.goes_mark _ _ _).writeResults.trans hsent
  have hlast : flushed.writeResults = rest := hflush.goes.writeResults.trans hmarked
  unfold View.backlog
  rw [hevents, hlast, hresults, List.length_cons]
  omega

theorem Calm.backlog_le {v w : View} (h : Calm v w) (hquelled : v.Quelled) :
    w.backlog ≤ v.backlog := by
  cases h with
  | @mark status matchedPattern =>
      have hevents : (v.mark status matchedPattern).portEvents = v.portEvents :=
        congrArg Surroundings.portEvents (View.around_mark v status matchedPattern)
      unfold View.backlog
      rw [hevents, (View.goes_mark v status matchedPattern).writeResults]
  | handOver htrigger hopen =>
      have hmarked := hquelled _ htrigger
      rw [hopen] at hmarked
      cases hmarked
  | settle now _ hresults _ _ htx hflush =>
      exact (View.backlog_settled hresults htx hflush).le
  | discard hresults =>
      unfold View.backlog
      simp only [hresults, List.length_cons]
      omega
  | receive hevents =>
      unfold View.backlog
      simp only [hevents, Option.getD_some, List.length_cons]
      omega
  | _ => exact le_rfl

theorem Routine.backlog_le {v w : View} (h : Routine v w) (hquelled : v.Quelled) :
    w.backlog ≤ v.backlog := by
  cases h with
  | calm h => exact h.backlog_le hquelled
  | stopPort =>
      unfold View.backlog View.stopped
      simp only [Option.getD_none, List.length_nil]
      omega
  | _ => exact le_rfl

theorem Routinely.backlog_le {v w : View} (h : Routinely v w) (hquelled : v.Quelled) :
    w.backlog ≤ v.backlog := by
  induction h with
  | refl => exact le_rfl
  | tail hpath hstep ih =>
      exact (hstep.backlog_le (Routinely.quelled hpath hquelled)).trans ih

/-! ## Idle ports -/

/-- What is not active stays so. -/
structure View.Rests (v w : View) : Prop where
  run : v.activeRun = none → w.activeRun = none
  trigger : v.activeTrigger = none → w.activeTrigger = none
  activeMacro : v.activeMacro = none → w.activeMacro = none

theorem View.Rests.trans {u v w : View} (huv : u.Rests v) (hvw : v.Rests w) :
    u.Rests w :=
  ⟨fun h => hvw.run (huv.run h), fun h => hvw.trigger (huv.trigger h),
    fun h => hvw.activeMacro (huv.activeMacro h)⟩

theorem Calm.rests {v w : View} (h : Calm v w) : v.Rests w := by
  have hrun : w.activeRun = v.activeRun := congrArg Mandate.activeRun h.mandate_eq
  refine ⟨hrun.trans, ?_, ?_⟩
  · intro hnone
    cases h with
    | mark => exact (View.goes_mark _ _ _).bare hnone
    | observe _ _ htrigger => cases hnone.symm.trans htrigger
    | unschedule htrigger => cases hnone.symm.trans htrigger
    | finish => rfl
    | handOver htrigger => cases hnone.symm.trans htrigger
    | settle _ htrigger => cases hnone.symm.trans htrigger
    | rxBuffer _ htrigger => cases hnone.symm.trans htrigger
    | gapBuffer _ htrigger => cases hnone.symm.trans htrigger
    | _ => exact hnone
  · intro hnone
    cases h with
    | mark =>
        exact (congrArg Surroundings.activeMacro (View.around_mark _ _ _)).trans hnone
    | settle _ _ _ _ _ htx hflush =>
        have haround := View.around_settled htx hflush
        exact (congrArg Surroundings.activeMacro haround).trans hnone
    | macroMoves next hstarts => exact hstarts hnone
    | _ => exact hnone

theorem Routine.rests {v w : View} (h : Routine v w) : v.Rests w := by
  cases h with
  | calm h => exact h.rests
  | closeRun => exact ⟨fun _ => rfl, id, id⟩
  | _ => exact ⟨id, id, id⟩

theorem Routinely.rests {v w : View} (h : Routinely v w) : v.Rests w := by
  induction h with
  | refl => exact ⟨id, id, id⟩
  | tail _ hstep ih => exact ih.trans hstep.rests

theorem Opening.rests {v w : View} (h : Opening v w) : v.Rests w := by
  cases h
  exact ⟨id, id, id⟩

theorem Wire.rests {known : Actor → Prop} {origin : Origin} {v w : View}
    (h : Wire known origin v w) : v.Rests w := by
  cases h <;> exact ⟨id, id, id⟩

theorem Arrange.rests {v w : View} (h : Arrange v w) : v.Rests w := by
  cases h <;> exact ⟨id, id, id⟩

/-! ## The same Trigger goes on -/

/-- What no calm step changes of a Trigger; once it stops it does not go on. -/
structure ActiveTrigger.Continues (trigger next : ActiveTrigger) : Prop where
  id : next.info.id = trigger.info.id
  owner : next.info.owner = trigger.info.owner
  spec : next.info.spec = trigger.info.spec
  deadline : next.deadline = trigger.deadline
  pending : trigger.pendingTerminal.isSome = true → next.pendingTerminal.isSome = true

/-- No other Trigger is there behind a step. -/
def View.Continues (v w : View) : Prop :=
  ∀ next, w.activeTrigger = some next →
    ∃ trigger, v.activeTrigger = some trigger ∧ trigger.Continues next

theorem View.Goes.continues {v w : View} (h : v.Goes w) : v.Continues w := by
  intro next hnext
  cases htrigger : v.activeTrigger with
  | none => cases (h.bare htrigger).symm.trans hnext
  | some trigger =>
      obtain ⟨found, hfound, hkept, hpending⟩ := h.active trigger htrigger
      obtain rfl := Option.some.inj (hfound.symm.trans hnext)
      exact ⟨trigger, rfl, hkept.id, hkept.owner, hkept.spec, hkept.deadline, hpending⟩

theorem View.continues_set {v w : View} {trigger next : ActiveTrigger}
    (htrigger : v.activeTrigger = some trigger) (hnext : w.activeTrigger = some next)
    (hcontinues : trigger.Continues next) : v.Continues w := by
  intro other hother
  obtain rfl := Option.some.inj (hnext.symm.trans hother)
  exact ⟨trigger, htrigger, hcontinues⟩

theorem View.continues_settled {v sent flushed : View} {trigger : ActiveTrigger}
    {result : TriggerWriteResult} {rest : List TriggerWriteResult} {now : ℕ}
    {queued : List PortEvent} (htrigger : v.activeTrigger = some trigger)
    (htx : (v.settle trigger result.kind rest).TriggerTx
      { trigger with writeInFlight := none } result sent)
    (hflush : View.Flushed queued
      (if result.isFull then sent.confirm result.kind now
        else sent.mark .writeFailed none).clearBuffer flushed) : v.Continues flushed := by
  have hsent := htx.goes rfl
  have hmarked : sent.Goes (if result.isFull then sent.confirm result.kind now
      else sent.mark .writeFailed none) := by
    split_ifs
    · exact View.goes_confirm _ _ _
    · exact View.goes_mark _ _ _
  obtain ⟨next, hnext, hkept, hpending⟩ := (hsent.trans hmarked).active
    { trigger with writeInFlight := none } rfl
  intro last hlast
  obtain ⟨cleared, hcleared, hcontinues⟩ := hflush.goes.continues last hlast
  unfold View.clearBuffer at hcleared
  rw [hnext] at hcleared
  obtain rfl := Option.some.inj hcleared
  exact ⟨trigger, htrigger, hcontinues.id.trans hkept.id, hcontinues.owner.trans hkept.owner,
    hcontinues.spec.trans hkept.spec, hcontinues.deadline.trans hkept.deadline,
    fun h => hcontinues.pending (hpending h)⟩

theorem ActiveTrigger.continues_writeHanded (trigger : ActiveTrigger)
    (kind : TriggerWriteKind) : trigger.Continues (trigger.writeHanded kind) := by
  cases kind <;> exact ⟨rfl, rfl, rfl, rfl, id⟩

theorem Calm.continues {v w : View} (h : Calm v w) : v.Continues w := by
  cases h with
  | note => exact (View.goes_emit _ _).continues
  | reply => exact (View.Goes.of_eq rfl rfl).continues
  | mark => exact (View.goes_mark _ _ _).continues
  | observe data now htrigger =>
      exact (View.goes_set htrigger (ActiveTrigger.kept_observeRx _ data now)
        (fun h => by rwa [ActiveTrigger.pendingTerminal_observeRx])).continues
  | unschedule htrigger => exact View.continues_set htrigger rfl ⟨rfl, rfl, rfl, rfl, id⟩
  | finish => exact fun next hnext => by cases hnext
  | @handOver trigger worker kind data run checkedAt htrigger =>
      exact View.continues_set htrigger rfl (trigger.continues_writeHanded kind)
  | settle now htrigger _ _ _ htx hflush => exact View.continues_settled htrigger htx hflush
  | discard => exact fun next hnext => ⟨next, hnext, rfl, rfl, rfl, rfl, id⟩
  | rxEmit => exact (View.Goes.of_eq rfl rfl).continues
  | rxBuffer _ htrigger => exact View.continues_set htrigger rfl ⟨rfl, rfl, rfl, rfl, id⟩
  | gapEmit => exact (View.Goes.of_eq rfl rfl).continues
  | gapBuffer _ htrigger => exact View.continues_set htrigger rfl ⟨rfl, rfl, rfl, rfl, id⟩
  | receive => exact (View.Goes.of_eq rfl rfl).continues
  | workersGone => exact (View.Goes.of_eq rfl rfl).continues
  | macroMoves => exact (View.Goes.of_eq rfl rfl).continues

end SerialPlatform
