import SerialPlatform.SlotHistories

/-!
# The record of transmitted bytes

Every write whose bytes the driver took is followed by its TX event, before any
other write.  The TX events carry exactly these bytes, at contiguous offsets.
-/

namespace SerialPlatform

/-- The bytes of a write which the driver is known to have taken. -/
def WriterRun.answered (run : WriterRun) : Bytes :=
  if run.outcome.isSome then run.accepted else []

/-- What the trace says of transmitted bytes. -/
structure TxBook where
  total : ℕ := 0
  /-- the write whose TX event is still to come -/
  owed : Option (Actor × Bytes) := none

namespace TxBook

def owedBytes (book : TxBook) : Bytes := (book.owed.map Prod.snd).getD []

def step (book : TxBook) : Effect → TxBook
  | .portWrite _ actor data run _ =>
      if run.written = 0 then book
      else { book with owed := some (actor, data.take run.written) }
  | .event event =>
      if event.kind = .tx then { total := book.total + event.data.length, owed := none }
      else book
  | _ => book

/-- The TX event of the write before it, at the current offset. -/
structure Pays (book : TxBook) (event : TimelineEvent) : Prop where
  owed : ∃ actor, event.actor = some actor ∧ book.owed = some (actor, event.data)
  direction : event.direction = .tx
  start : event.streamOffsetStart = some (min book.total u64Max)
  stop : event.streamOffsetEnd = some (min (book.total + event.data.length) u64Max)

/-- The driver takes the start of what was asked for, while nothing is owed; a TX event
pays what is owed. -/
def Allows (book : TxBook) : Effect → Prop
  | .portWrite _ _ data run _ =>
      run.answered = data.take run.written ∧ (0 < run.written → book.owed = none)
  | .event event => if event.kind = .tx then book.Pays event else event.direction ≠ .tx
  | _ => True

def monitor : TraceMonitor TxBook Effect where
  start := {}
  step := step
  Allows := Allows

/-- The bytes of the TX events. -/
def transmitted (trace : List Effect) : Bytes :=
  trace.flatMap fun
    | .event event => if event.kind = .tx then event.data else []
    | _ => []

/-- The bytes which the driver is known to have taken. -/
def answered (trace : List Effect) : Bytes :=
  trace.flatMap fun
    | .portWrite _ _ _ run _ => run.answered
    | _ => []

/-- An accepted trace transmits what was taken, but for what is owed. -/
theorem transmitted_of_accepts {trace : List Effect} (h : monitor.Accepts trace) :
    transmitted trace ++ (monitor.after monitor.start trace).owedBytes = answered trace := by
  induction trace using List.reverseRecOn with
  | nil => rfl
  | append_singleton trace effect ih =>
      have hbefore := ih h.of_append
      have hallowed : Allows (monitor.after monitor.start trace) effect := h.allows
      rw [TraceMonitor.after_concat]
      generalize monitor.after monitor.start trace = book at hbefore hallowed ⊢
      unfold transmitted answered at hbefore ⊢
      rw [List.flatMap_append, List.flatMap_append, List.flatMap_singleton,
        List.flatMap_singleton]
      cases effect with
      | portWrite origin actor data run checkedAt =>
          have hstep : monitor.step book (.portWrite origin actor data run checkedAt) =
              if run.written = 0 then book
              else { book with owed := some (actor, data.take run.written) } := rfl
          rw [hstep, List.append_nil]
          by_cases hwritten : run.written = 0
          · have hnothing : run.answered = [] := by
              rw [hallowed.1, hwritten, List.take_zero]
            simp only [if_pos hwritten, hnothing, List.append_nil]
            exact hbefore
          · have howed : book.owedBytes = [] := by
              unfold owedBytes
              rw [hallowed.2 (Nat.pos_of_ne_zero hwritten)]
              rfl
            rw [howed, List.append_nil] at hbefore
            simp only [if_neg hwritten]
            rw [hallowed.1, ← hbefore]
            rfl
      | event event =>
          have hstep : monitor.step book (.event event) =
              if event.kind = .tx then { total := book.total + event.data.length, owed := none }
              else book := rfl
          have hpays : if event.kind = .tx then book.Pays event else event.direction ≠ .tx :=
            hallowed
          rw [hstep]
          by_cases hkind : event.kind = .tx
          · rw [if_pos hkind] at hpays
            obtain ⟨actor, -, howed⟩ := hpays.owed
            have hbytes : book.owedBytes = event.data := by
              unfold owedBytes
              rw [howed]
              rfl
            rw [hbytes] at hbefore
            simp only [if_pos hkind]
            rw [List.append_nil, ← hbefore]
            exact List.append_nil _
          · simp only [if_neg hkind]
            rw [List.append_nil, List.append_nil]
            exact hbefore
      | _ =>
          rw [List.append_nil, List.append_nil]
          exact hbefore

/-! ## The actor and its record -/

/-- The TX event which a result asks for. -/
def owe (actor : Actor) (data : Bytes) (written : ℕ) : Option (Actor × Bytes) :=
  if written = 0 then none else some (actor, data.take written)

/-- The TX event of the write in flight. -/
def owedOf (trigger : Option ActiveTrigger) : List TriggerWriteResult → Option (Actor × Bytes)
  | [] => none
  | result :: _ => trigger.bind fun trigger => owe trigger.info.owner result.data result.written

/-- The offset and what is owed. -/
structure Keeps (owed : Option (Actor × Bytes)) (v : View) (book : TxBook) : Prop where
  offset : v.txOffset = min book.total u64Max
  owed : book.owed = owed

structure Shows (v : View) (book : TxBook) : Prop where
  keeps : Keeps (owedOf v.activeTrigger v.writeResults) v book
  flight : v.FlightOk

variable {known : Actor → Prop} {allowed : Origin → Prop} {v w : View} {book : TxBook}
  {owed : Option (Actor × Bytes)}

theorem Keeps.of_offset (h : Keeps owed v book) (hoffset : w.txOffset = v.txOffset) :
    Keeps owed w book :=
  ⟨hoffset.trans h.offset, h.owed⟩

theorem owedOf_owner {trigger next : ActiveTrigger}
    (howner : next.info.owner = trigger.info.owner) (results : List TriggerWriteResult) :
    owedOf (some next) results = owedOf (some trigger) results := by
  cases results with
  | nil => rfl
  | cons => simp only [owedOf, Option.bind_some, howner]

theorem owedOf_goes (h : v.Goes w) :
    owedOf w.activeTrigger w.writeResults = owedOf v.activeTrigger v.writeResults := by
  rw [h.writeResults]
  cases v.writeResults with
  | nil => rfl
  | cons result rest =>
      cases htrigger : v.activeTrigger with
      | none => rw [h.bare htrigger]
      | some trigger =>
          obtain ⟨next, hnext, hkept, -⟩ := h.active trigger htrigger
          rw [hnext]
          exact owedOf_owner hkept.owner _

/-- A step beside the writes. -/
theorem Shows.goes (h : Shows v book) (hgoes : v.Goes w) (hoffset : w.txOffset = v.txOffset) :
    Shows w book := by
  refine ⟨?_, h.flight.goes hgoes⟩
  rw [owedOf_goes hgoes]
  exact h.keeps.of_offset hoffset

/-- Nothing is owed while no result is awaited. -/
theorem Shows.of_results (hoffset : Keeps none w book) (hresults : w.writeResults = [])
    (hflight : w.FlightOk) : Shows w book := by
  refine ⟨?_, hflight⟩
  rw [hresults]
  exact hoffset

/-! ## Effects -/

theorem ignores_event {event : TimelineEvent} (hkind : event.kind ≠ .tx)
    (hdirection : event.direction ≠ .tx) : monitor.Ignores (.event event) := by
  intro book
  refine ⟨?_, if_neg hkind⟩
  show if event.kind = .tx then book.Pays event else event.direction ≠ .tx
  rw [if_neg hkind]
  exact hdirection

theorem ignores_background {effect : Effect} (h : effect.IsBackground) :
    monitor.Ignores effect := by
  cases effect with
  | event event =>
      refine ignores_event ?_ h.2
      rcases h.1 with heq | heq | heq <;> rw [heq] <;> decide
  | triggerMarked => exact fun _ => ⟨trivial, rfl⟩
  | _ => exact h.elim

theorem txOffset_emit {event : TimelineEvent} (hdirection : event.direction ≠ .tx) :
    (v.emit event).txOffset = v.txOffset := if_neg hdirection

theorem txOffset_noted (h : View.Noted v w) : w.txOffset = v.txOffset := by
  cases h with
  | nil => rfl
  | note hnote =>
      refine txOffset_emit ?_
      rw [hnote.direction]
      exact Direction.noConfusion

theorem txOffset_mark (v : View) (status : TriggerStatus) (matchedPattern : Option Bytes) :
    (v.mark status matchedPattern).txOffset = v.txOffset := by
  unfold View.mark
  split <;> rfl

theorem txOffset_confirm (v : View) (kind : TriggerWriteKind) (now : ℕ) :
    (v.confirm kind now).txOffset = v.txOffset := by
  unfold View.confirm
  split
  · rfl
  · simp only
    split
    · exact txOffset_mark _ _ _
    · rfl

theorem txOffset_flushed {queued : List PortEvent} (h : View.Flushed queued v w) :
    w.txOffset = v.txOffset := by
  have hrx : ∀ direction, direction = Direction.rx ∨ direction = .none → direction ≠ .tx := by
    rintro direction (rfl | rfl) <;> exact Direction.noConfusion
  induction h with
  | done => rfl
  | rx hrxEvent hnoted _ ih =>
      exact ih.trans ((txOffset_noted hnoted).trans
        (txOffset_emit (hrx _ (.inl hrxEvent.direction))))
  | gap hgap hnoted _ ih =>
      exact ih.trans ((txOffset_noted hnoted).trans
        (txOffset_emit (hrx _ (.inr hgap.event.direction))))
  | skip _ _ _ ih => exact ih

theorem step_silent {origin : Origin} {actor : Actor} {data : Bytes} {run : WriterRun}
    {checkedAt : ℕ} (book : TxBook) (hwritten : run.written = 0) :
    monitor.step book (.portWrite origin actor data run checkedAt) = book := if_pos hwritten

/-- A write while nothing is owed asks for its TX event. -/
theorem step_portWrite {origin : Origin} {actor : Actor} {data : Bytes} {run : WriterRun}
    {checkedAt : ℕ} (book : TxBook) (hnone : book.owed = none) :
    (monitor.step book (.portWrite origin actor data run checkedAt)).total = book.total ∧
      (monitor.step book (.portWrite origin actor data run checkedAt)).owed =
        owe actor data run.written := by
  have hstep : monitor.step book (.portWrite origin actor data run checkedAt) =
      if run.written = 0 then book
      else { book with owed := some (actor, data.take run.written) } := rfl
  rw [hstep, owe]
  split_ifs
  · exact ⟨rfl, hnone⟩
  · exact ⟨rfl, rfl⟩

example : monitor.start.owedBytes = [] := by decide +kernel

/-! ## Steps -/

abbrev Carries : View → View → Prop := monitor.Carries View.trace Shows Shows

theorem carries_behind (h : v.ExtendsBehind w)
    (hshows : ∀ book, Shows v book → Shows w book) : Carries v w := by
  obtain ⟨effects, htrace, hall⟩ := h
  exact ⟨effects, htrace, .ignored (fun effect hmem => ignores_background (hall effect hmem))
    hshows⟩

theorem carries_ignored {effect : Effect} (htrace : w.trace = v.trace ++ [effect])
    (hignored : monitor.Ignores effect) (hshows : ∀ book, Shows v book → Shows w book) :
    Carries v w :=
  ⟨[effect], htrace, .ignored (fun other hmem => by rwa [List.mem_singleton.mp hmem]) hshows⟩

theorem answered_of_sent {worker : PortWorker} {data : Bytes} {run : WriterRun}
    (h : v.Sent worker data run) : run.answered = data.take run.written := by
  unfold WriterRun.answered WriterRun.written
  cases houtcome : run.outcome with
  | none => simp
  | some outcome =>
      rw [if_pos Option.isSome_some]
      exact (h.report outcome houtcome).accepted_eq

/-- A TX event pays for the write before it. -/
theorem pays_of_isTx {event : TimelineEvent} {actor : Actor} {data : Bytes} {written : ℕ}
    (h : v.IsTx event actor data written) (hkeeps : Keeps (some (actor, data.take written)) v book) :
    book.Pays event := by
  have hoffsets := h.next.offsets
  rw [h.direction] at hoffsets
  obtain ⟨hstart, hstop⟩ := Prod.mk.inj hoffsets
  refine ⟨⟨actor, h.actor, ?_⟩, h.direction, ?_, ?_⟩
  · rw [h.data]
    exact hkeeps.owed
  · rw [hstart, hkeeps.offset]
  · rw [hstop, hkeeps.offset]
    unfold satAdd
    congr 1
    omega

theorem keeps_paid {event : TimelineEvent} (hdirection : event.direction = .tx)
    (h : Keeps owed v book) :
    Keeps none (v.emit event) { total := book.total + event.data.length, owed := none } := by
  refine ⟨?_, rfl⟩
  have hoffset : (v.emit event).txOffset = satAdd u64Max v.txOffset event.data.length :=
    if_pos hdirection
  rw [hoffset, h.offset]
  show min (min book.total u64Max + event.data.length) u64Max =
    min (book.total + event.data.length) u64Max
  omega

/-- The TX event pays what is owed. -/
theorem reads_tx {event : TimelineEvent} {actor : Actor} {data : Bytes} {written : ℕ}
    (h : v.IsTx event actor data written) :
    monitor.Reads (Keeps (some (actor, data.take written)) v) [.event event]
      (Keeps none (v.emit event)) := by
  refine .one (fun book hkeeps => ?_) fun book hkeeps => ?_
  · show if event.kind = .tx then book.Pays event else event.direction ≠ .tx
    rw [if_pos h.kind]
    exact pays_of_isTx h hkeeps
  · have hstep : monitor.step book (.event event) =
        { total := book.total + event.data.length, owed := none } := if_pos h.kind
    rw [hstep]
    exact keeps_paid h.direction hkeeps

theorem reads_behind (owed : Option (Actor × Bytes)) (h : v.ExtendsBehind w) (hoffset : w.txOffset = v.txOffset) :
    ∃ effects, w.trace = v.trace ++ effects ∧ monitor.Reads (Keeps owed v) effects (Keeps owed w) := by
  obtain ⟨effects, htrace, hall⟩ := h
  exact ⟨effects, htrace, .ignored (fun effect hmem => ignores_background (hall effect hmem))
    fun _ hkeeps => hkeeps.of_offset hoffset⟩

theorem reads_triggerTx {trigger : ActiveTrigger} {result : TriggerWriteResult}
    (h : v.TriggerTx trigger result w) :
    ∃ effects, w.trace = v.trace ++ effects ∧
      monitor.Reads (Keeps (owe trigger.info.owner result.data result.written) v) effects
        (Keeps none w) := by
  cases h with
  | silent hwritten =>
      refine ⟨[], (List.append_nil _).symm, .nil fun book hkeeps => ?_⟩
      rw [owe, if_pos hwritten] at hkeeps
      exact hkeeps
  | @tx event noted hwritten htx _ _ hnoted =>
      have howe : owe trigger.info.owner result.data result.written =
          some (trigger.info.owner, result.data.take result.written) :=
        if_neg (Nat.pos_iff_ne_zero.mp hwritten)
      obtain ⟨notes, htrace, hnotes⟩ := reads_behind none hnoted.extends
        (txOffset_noted hnoted)
      refine ⟨.event event :: notes, ?_, ?_⟩
      · have hmiddle : noted.trace = v.trace ++ .event event :: notes := by
          rw [htrace, View.emit, List.append_assoc]
          rfl
        exact hmiddle
      · rw [howe]
        have hall := (reads_tx htx).append hnotes
        intro book hkeeps
        obtain ⟨hallowed, hend⟩ := hall book hkeeps
        exact ⟨hallowed, hend.offset, hend.owed⟩

/-- The result of the write in flight is paid before anything else is written. -/
theorem carries_settle {sent flushed : View} {trigger : ActiveTrigger}
    {result : TriggerWriteResult} {rest : List TriggerWriteResult} {now : ℕ}
    (hcalm : Calm v flushed) (htrigger : v.activeTrigger = some trigger)
    (hresults : v.writeResults = result :: rest)
    (hflight : trigger.writeInFlight = some result.kind)
    (htx : (v.settle trigger result.kind rest).TriggerTx
      { trigger with writeInFlight := none } result sent)
    (hflush : View.Flushed trigger.bufferedRx.queued
      (if result.isFull then sent.confirm result.kind now
        else sent.mark .writeFailed none).clearBuffer flushed) :
    Carries v flushed := by
  obtain ⟨paid, hpaidTrace, hpaid⟩ := reads_triggerTx htx
  have hreportedOffset : (if result.isFull then sent.confirm result.kind now
      else sent.mark .writeFailed none).clearBuffer.txOffset = sent.txOffset := by
    split_ifs
    · exact txOffset_confirm _ _ _
    · exact txOffset_mark _ _ _
  obtain ⟨reported, hreportedTrace, hreported⟩ := reads_behind none
    (sent.extends_reported result now) hreportedOffset
  obtain ⟨last, hlastTrace, hlast⟩ := reads_behind none hflush.extends
    (txOffset_flushed hflush)
  have hsettled : (v.settle trigger result.kind rest).trace =
      v.trace ++ [.triggerWriteSettled trigger.info.id result.kind] := rfl
  have hall := (hpaid.append hreported).append hlast
  refine ⟨.triggerWriteSettled trigger.info.id result.kind :: (paid ++ reported ++ last), ?_,
    fun book hshows => ?_⟩
  · rw [hlastTrace, hreportedTrace, hpaidTrace, hsettled]
    simp only [List.append_assoc, List.cons_append, List.nil_append]
  · have howed : owedOf v.activeTrigger v.writeResults =
        owe trigger.info.owner result.data result.written := by
      rw [htrigger, hresults]
      rfl
    have hkeeps := hshows.keeps
    rw [howed] at hkeeps
    obtain ⟨hallowed, hend⟩ := hall book ⟨hkeeps.offset, hkeeps.owed⟩
    -- the only result was the one which settled
    have hnone : flushed.writeResults = [] := by
      obtain ⟨only, honly, -⟩ := hshows.flight.flying trigger result.kind htrigger hflight
      rw [hresults] at honly
      have hrest : rest = [] := (List.cons.inj honly).2
      have hreportedResults : (if result.isFull then sent.confirm result.kind now
          else sent.mark .writeFailed none).clearBuffer.writeResults = sent.writeResults := by
        split_ifs
        · exact (View.goes_confirm _ _ _).writeResults
        · exact (View.goes_mark _ _ _).writeResults
      rw [hflush.goes.writeResults, hreportedResults, (htx.goes rfl).writeResults]
      exact hrest
    exact ⟨⟨trivial, hallowed⟩, .of_results hend hnone (hcalm.flightOk hshows.flight)⟩

example : owedOf none [] = none := by decide +kernel

theorem carries_calm (h : Calm v w) : Carries v w := by
  have hcalm := h
  cases h with
  | @note event hplain hevent =>
      have hdirection : event.direction ≠ .tx := by
        rw [hevent.direction]
        exact Direction.noConfusion
      exact carries_ignored rfl
        (ignores_event (EventKind.ne_tx_of_isPlain hplain) hdirection)
        fun book hshows => hshows.goes (View.goes_emit _ _) (txOffset_emit hdirection)
  | @reply effect hreply =>
      refine carries_ignored rfl ?_ fun book hshows => hshows.goes (.of_eq rfl rfl) rfl
      cases effect with
      | reply => exact fun _ => ⟨trivial, rfl⟩
      | macroReply => exact fun _ => ⟨trivial, rfl⟩
      | adminReply => exact fun _ => ⟨trivial, rfl⟩
      | _ => cases hreply
  | mark =>
      exact carries_behind (View.extends_mark _ _ _) fun book hshows =>
        hshows.goes (View.goes_mark _ _ _) (txOffset_mark _ _ _)
  | observe data now htrigger =>
      exact .silent rfl fun book hshows => hshows.goes
        (View.goes_set htrigger (ActiveTrigger.kept_observeRx _ data now)
          (fun h => by rwa [ActiveTrigger.pendingTerminal_observeRx])) rfl
  | unschedule htrigger =>
      exact .silent rfl fun book hshows =>
        hshows.goes (View.goes_set htrigger ⟨rfl, rfl, rfl, rfl, rfl, rfl⟩ id) rfl
  | @finish trigger status _ event htrigger hidle _ hkind _ hevent =>
      have hdirection : event.direction ≠ .tx := by
        rw [hevent.direction]
        exact Direction.noConfusion
      have hne : event.kind ≠ .tx := by
        rw [hkind]
        cases status <;> exact EventKind.noConfusion
      refine carries_ignored rfl (ignores_event hne hdirection) fun book hshows => ?_
      have hresults := (hshows.flight.idle trigger htrigger hidle).1
      have hkeeps := hshows.keeps
      rw [hresults] at hkeeps
      exact .of_results (hkeeps.of_offset (txOffset_emit hdirection)) hresults
        (hcalm.flightOk hshows.flight)
  | @handOver trigger worker kind data run checkedAt htrigger hopen hidle hplan hdeadline hsent =>
      have hnone : ∀ book, Shows v book → book.owed = none ∧ v.writeResults = [] := by
        intro book hshows
        have hresults := (hshows.flight.idle trigger htrigger hidle).1
        have howed := hshows.keeps.owed
        rw [hresults] at howed
        exact ⟨howed, hresults⟩
      refine .reading _ rfl (fun book hshows =>
          ⟨answered_of_sent hsent, fun _ => (hnone book hshows).1⟩)
        fun book hshows => ⟨⟨?_, ?_⟩, hcalm.flightOk hshows.flight⟩
      · rw [(step_portWrite book (hnone book hshows).1).1]
        exact hshows.keeps.offset
      rw [(step_portWrite book (hnone book hshows).1).2]
      have hwritten : (SlotActor.triggerWriteReport (SlotActor.triggerWriteAnswer run)).1 =
          run.written := by
        unfold SlotActor.triggerWriteAnswer WriterRun.written
        cases run.outcome <;> rfl
      have howner : (trigger.writeHanded kind).info.owner = trigger.info.owner := by
        cases kind <;> rfl
      simp only [View.record, (hnone book hshows).2, List.nil_append, owedOf,
        Option.bind_some, TriggerWriteResult.written, hwritten, howner]
  | settle now htrigger hresults _ hflight htx hflush =>
      exact carries_settle hcalm htrigger hresults hflight htx hflush
  | @discard result rest hresults hstale =>
      -- no result is stale: the only one is that of the write in flight
      refine .silent rfl fun book hshows => ?_
      exfalso
      cases htrigger : v.activeTrigger with
      | none =>
          rw [hshows.flight.bare htrigger] at hresults
          cases hresults
      | some trigger =>
          cases hflying : trigger.writeInFlight with
          | none =>
              rw [(hshows.flight.idle trigger htrigger hflying).1] at hresults
              cases hresults
          | some kind =>
              obtain ⟨only, honly, hid, hkind⟩ :=
                hshows.flight.flying trigger kind htrigger hflying
              rw [hresults] at honly
              obtain ⟨rfl, -⟩ := List.cons.inj honly
              rcases hstale trigger htrigger with hne | hne
              · exact hne hid.symm
              · exact hne (hflying.trans (congrArg some hkind.symm))
  | @rxEmit data rest event _ _ hrx =>
      have hdirection : event.direction ≠ .tx := by
        rw [hrx.direction]
        exact Direction.noConfusion
      exact carries_ignored rfl (ignores_background hrx.background) fun book hshows =>
        hshows.goes (.of_eq rfl rfl) (txOffset_emit hdirection)
  | rxBuffer _ htrigger =>
      refine .silent rfl fun book hshows => ⟨?_, hcalm.flightOk hshows.flight⟩
      have hkeeps := hshows.keeps
      rw [htrigger] at hkeeps
      refine ⟨hkeeps.offset, hkeeps.owed.trans (owedOf_owner ?_ _).symm⟩
      rfl
  | @gapEmit count rest event _ _ hgap =>
      have hdirection : event.direction ≠ .tx := by
        rw [hgap.event.direction]
        exact Direction.noConfusion
      exact carries_ignored rfl (ignores_background hgap.background) fun book hshows =>
        hshows.goes (.of_eq rfl rfl) (txOffset_emit hdirection)
  | gapBuffer _ htrigger =>
      refine .silent rfl fun book hshows => ⟨?_, hcalm.flightOk hshows.flight⟩
      have hkeeps := hshows.keeps
      rw [htrigger] at hkeeps
      refine ⟨hkeeps.offset, hkeeps.owed.trans (owedOf_owner ?_ _).symm⟩
      rfl
  | receive => exact .silent rfl fun book hshows => hshows.goes (.of_eq rfl rfl) rfl
  | workersGone => exact .silent rfl fun book hshows => hshows.goes (.of_eq rfl rfl) rfl
  | macroMoves => exact .silent rfl fun book hshows => hshows.goes (.of_eq rfl rfl) rfl

theorem carries_routine (h : Routine v w) : Carries v w := by
  have hevent : ∀ {event : TimelineEvent} {w : View}, event.kind ≠ .tx → event.direction = .none →
      w.trace = v.trace ++ [.event event] → v.Goes w → w.txOffset = v.txOffset →
      Carries v w := by
    intro event w hkind hdirection htrace hgoes hoffset
    refine carries_ignored htrace (ignores_event hkind ?_) fun _ hshows =>
      hshows.goes hgoes hoffset
    rw [hdirection]
    exact Direction.noConfusion
  have hnone : ∀ {direction : Direction}, direction = .none → direction ≠ .tx := by
    rintro direction rfl
    exact Direction.noConfusion
  cases h with
  | calm h => exact carries_calm h
  | stand => exact .silent rfl fun _ hshows => hshows.goes (.of_eq rfl rfl) rfl
  | closeApproval _ hkind _ hquiet =>
      refine hevent ?_ hquiet.direction rfl (.of_eq rfl rfl) (txOffset_emit (hnone hquiet.direction))
      rcases hkind with heq | heq | heq <;> rw [heq] <;> decide
  | closeRun _ hkind _ hquiet =>
      refine hevent ?_ hquiet.direction rfl (.of_eq rfl rfl) (txOffset_emit (hnone hquiet.direction))
      rcases hkind with heq | heq <;> rw [heq] <;> decide
  | clearContext => exact .silent rfl fun _ hshows => hshows.goes (.of_eq rfl rfl) rfl
  | stopPort => exact .silent rfl fun _ hshows => hshows.goes (.of_eq rfl rfl) rfl

example : transmitted [] = answered [] := by decide +kernel

section Writes

variable {origin : Origin} {actor : Actor} {data : Bytes} {run : WriterRun} {checkedAt : ℕ}
  {worker : PortWorker} {event : TimelineEvent}

theorem owed_none_of_quiet (hshows : Shows v book) (hquiet : v.activeTrigger = none) :
    book.owed = none ∧ v.writeResults = [] := by
  have hresults := hshows.flight.bare hquiet
  have howed := hshows.keeps.owed
  rw [hresults] at howed
  exact ⟨howed, hresults⟩

/-- A write while no Trigger is active pays at once. -/
theorem carries_write {context : Option RunContextState} (hsent : v.Sent worker data run)
    (hwritten : 0 < run.written) (hquiet : v.activeTrigger = none)
    (htx : (v.record (.portWrite origin actor data run checkedAt)).IsTx event actor data
      run.written) :
    Carries v ((({ v with runContext := context } : View).record
      (.portWrite origin actor data run checkedAt)).emit event) := by
  have htrace : ((({ v with runContext := context } : View).record
      (.portWrite origin actor data run checkedAt)).emit event).trace =
        v.trace ++ [.portWrite origin actor data run checkedAt, .event event] := by
    show v.trace ++ [_] ++ [_] = _
    rw [List.append_assoc]
    rfl
  refine ⟨_, htrace, fun book hshows => ?_⟩
  obtain ⟨hnone, hresults⟩ := owed_none_of_quiet hshows hquiet
  have hstep : (monitor.step book (.portWrite origin actor data run checkedAt)).total =
        book.total ∧
      (monitor.step book (.portWrite origin actor data run checkedAt)).owed =
        owe actor data run.written := step_portWrite book hnone
  have howe : owe actor data run.written = some (actor, data.take run.written) :=
    if_neg (Nat.pos_iff_ne_zero.mp hwritten)
  obtain ⟨⟨hpaid, -⟩, hend⟩ := reads_tx htx _ ⟨by rw [hstep.1]; exact hshows.keeps.offset,
    hstep.2.trans howe⟩
  refine ⟨⟨⟨answered_of_sent hsent, fun _ => hnone⟩, hpaid, trivial⟩, ?_⟩
  exact .of_results ⟨hend.offset, hend.owed⟩ hresults (.of_none hquiet hresults)

theorem carries_wire (h : Wire known origin v w) : Carries v w := by
  cases h with
  | writeSilent _ hsent hwritten =>
      refine .reading _ rfl (fun book _ => ⟨answered_of_sent hsent, fun hpositive => ?_⟩)
        fun book hshows => ?_
      · rw [hwritten] at hpositive
        exact absurd hpositive (lt_irrefl 0)
      · rw [step_silent book hwritten]
        exact hshows.goes (.of_eq rfl rfl) rfl
  | write _ hsent hwritten hquiet _ _ htx => exact carries_write hsent hwritten hquiet htx
  | intervene _ _ hsent hwritten hquiet _ _ _ _ _ _ htx =>
      exact carries_write hsent hwritten hquiet htx
  | sendBreak =>
      exact carries_ignored rfl (fun _ => ⟨trivial, rfl⟩) fun _ hshows =>
        hshows.goes (.of_eq rfl rfl) rfl

end Writes

theorem carries_step (h : SlotStep known allowed v w) : Carries v w := by
  have hevent : ∀ {event : TimelineEvent} {w : View}, event.kind ≠ .tx → v.IsEvent event →
      w.trace = v.trace ++ [.event event] → v.Goes w →
      w.txOffset = (v.emit event).txOffset → Carries v w := by
    intro event w hkind his htrace hgoes hoffset
    have hdirection : event.direction ≠ .tx := by
      rw [his.direction]
      exact Direction.noConfusion
    exact carries_ignored htrace (ignores_event hkind hdirection) fun _ hshows =>
      hshows.goes hgoes (hoffset.trans (txOffset_emit hdirection))
  cases h with
  | routine h => exact carries_routine h
  | opening h =>
      cases h
      exact carries_ignored rfl (fun _ => ⟨trivial, rfl⟩) fun _ hshows =>
        hshows.goes (.of_eq rfl rfl) rfl
  | wire _ _ h => exact carries_wire h
  | arm _ h =>
      cases h with
      | arm _ htrigger _ hnew =>
          refine carries_ignored rfl (fun _ => ⟨trivial, rfl⟩) fun book hshows => ?_
          obtain ⟨hnone, hresults⟩ := owed_none_of_quiet hshows htrigger
          exact .of_results ⟨hshows.keeps.offset, hnone⟩ hresults
            (.of_idle rfl hnew.writeInFlight hresults hnew.bufferedRx)
  | start h =>
      cases h with
      | startRun _ _ _ hkind _ _ his =>
          refine hevent ?_ his rfl (.of_eq rfl rfl) rfl
          rw [hkind]
          exact EventKind.noConfusion
      | startMacro => exact .silent rfl fun _ hshows => hshows.goes (.of_eq rfl rfl) rfl
  | arrange h =>
      cases h with
      | askApproval _ hkind _ his =>
          refine hevent ?_ his rfl (.of_eq rfl rfl) rfl
          rw [hkind]
          exact EventKind.noConfusion
      | approve _ hkind _ _ his =>
          refine hevent ?_ his rfl (.of_eq rfl rfl) rfl
          rw [hkind]
          exact EventKind.noConfusion
      | grantAtOnce _ hkind _ _ his =>
          refine hevent ?_ his rfl (.of_eq rfl rfl) rfl
          rw [hkind]
          exact EventKind.noConfusion
      | acknowledge =>
          exact carries_ignored rfl (fun _ => ⟨trivial, rfl⟩) fun _ hshows =>
            hshows.goes (.of_eq rfl rfl) rfl
  | keep h =>
      cases h <;> exact .silent rfl fun _ hshows => hshows.goes (.of_eq rfl rfl) rfl

end TxBook

namespace SlotActor

/-- The loop ended before the inputs did. -/
def ends : List TurnInput → SlotActor → Bool
  | [], _ => false
  | input :: inputs, s =>
      match s.turn input with
      | (s, false) => ends inputs s
      | (_, true) => true

variable {s : SlotActor}

/-- No result is left once the loop is wound down. -/
theorem writeResults_settle (hflight : (s.view []).FlightOk) (hquelled : (s.view []).Quelled)
    (hevents : s.port.portEvents = none) :
    (s.settleTriggerWriteAfterPortStop.view []).writeResults = [] := by
  have hempty : ∀ v : View, v.backlog = 0 → v.writeResults = [] := by
    intro v hv
    unfold View.backlog at hv
    exact List.eq_nil_of_length_eq_zero (by omega)
  unfold settleTriggerWriteAfterPortStop
  extract_lets settled
  have hsettled : (settled.view []).backlog = 0 ∧ (settled.view []).Quelled := by
    have hbacklog : (s.view []).backlog = s.trigger.writeResults.length := by
      show (s.port.portEvents.getD []).length + s.trigger.writeResults.length = _
      rw [hevents]
      exact Nat.zero_add _
    simp only [settled]
    split_ifs with hbusy
    · refine ⟨?_, (s.calmly_receiveTriggerWriteResult []).routinely.quelled hquelled⟩
      have hlt := receiveTriggerWriteResult_backlog [] hflight hbusy hquelled
      have hone : s.trigger.writeResults.length ≤ 1 := by
        cases htrigger : s.trigger.activeTrigger with
        | none =>
            have hnone : s.trigger.writeResults = [] := hflight.bare htrigger
            rw [hnone]
            exact Nat.zero_le _
        | some trigger =>
            cases hflying : trigger.writeInFlight with
            | none =>
                have hnone : s.trigger.writeResults = [] :=
                  (hflight.idle trigger htrigger hflying).1
                rw [hnone]
                exact Nat.zero_le _
            | some kind =>
                obtain ⟨result, hresults, -⟩ := hflight.flying trigger kind htrigger hflying
                have hsingle : s.trigger.writeResults = [result] := hresults
                rw [hsingle]
                exact le_rfl
      omega
    · refine ⟨?_, hquelled⟩
      rw [hbacklog, List.length_eq_zero_iff]
      cases htrigger : s.trigger.activeTrigger with
      | none => exact hflight.bare htrigger
      | some trigger =>
          have hidle : trigger.writeInFlight = none := by
            unfold triggerWriteInFlight at hbusy
            rw [htrigger] at hbusy
            simpa using hbusy
          exact (hflight.idle trigger htrigger hidle).1
  have hdrained := settled.calmly_drainTriggerWriteResults [] settled.trigger.writeResults.length
  have hle := hdrained.routinely.backlog_le hsettled.2
  exact hempty _ (by omega)

theorem portEvents_of_calm {v w : View} (h : Calm v w) (hnone : v.portEvents = none) :
    w.portEvents = none := by
  cases h with
  | mark => exact (congrArg Surroundings.portEvents (View.around_mark _ _ _)).trans hnone
  | settle _ _ _ _ _ htx hflush =>
      exact (congrArg Surroundings.portEvents (View.around_settled htx hflush)).trans hnone
  | receive hevents => cases hnone.symm.trans hevents
  | _ => exact hnone

theorem portEvents_stopPort (s : SlotActor) : s.stopPort.port.portEvents = none := by
  obtain ⟨v, -, hafter⟩ := s.stopPort_drains []
  have hkept : ∀ w, Calmly v.stopped w → w.portEvents = none := by
    intro w hpath
    induction hpath with
    | refl => rfl
    | tail _ hstep ih => exact portEvents_of_calm hstep ih
  exact hkept _ hafter

/-- A Trigger which is asked to stop is marked or gone. -/
theorem quelled_requestTriggerStop (s : SlotActor) (status : TriggerStatus) :
    ((s.requestTriggerStop status none).view []).Quelled := by
  have hmarked : ((s.markTriggerStopping status none).view []).Quelled := by
    intro trigger htrigger
    rw [s.view_markTriggerStopping [] status none] at htrigger
    unfold View.mark at htrigger
    cases hactive : (s.view []).activeTrigger with
    | none =>
        rw [hactive] at htrigger
        cases hactive.symm.trans htrigger
    | some before =>
        rw [hactive] at htrigger
        obtain rfl := Option.some.inj htrigger
        exact before.pendingTerminal_markStopping _ _
  unfold requestTriggerStop
  extract_lets marked
  split_ifs
  · exact hmarked
  · exact (marked.calmly_finishStoppedTriggerIfIdle []).routinely.quelled hmarked

theorem writeResults_windDown (hflight : (s.view []).FlightOk) :
    (s.windDown.view []).writeResults = [] := by
  unfold windDown
  extract_lets marked settled _
  have hmarked : Calmly (s.view []) (marked.view []) :=
    s.calmly_requestTriggerStop [] rfl (by decide)
  have hquelled : (marked.view []).Quelled :=
    s.quelled_requestTriggerStop .portClosed
  have hstopped := marked.routinely_stopPort []
  exact writeResults_settle (hstopped.flightOk (hmarked.flightOk hflight))
    (hstopped.quelled hquelled) marked.portEvents_stopPort

variable {known : Actor → Prop}

theorem writeResults_of_ends (inputs : List TurnInput) (h : s.Sound known)
    (hinputs : ∀ input ∈ inputs, Admits known input) (hends : s.ends inputs = true) :
    ((run inputs s).view []).writeResults = [] := by
  induction inputs generalizing s with
  | nil => cases hends
  | cons input inputs ih =>
      have hturn := turns_turn h (hinputs input List.mem_cons_self)
      unfold run
      unfold ends at hends
      generalize s.turn input = turned at hturn hends ⊢
      rcases turned with ⟨next, ended⟩
      cases ended with
      | false =>
          exact ih hturn.sound (fun input hmem => hinputs input (List.mem_cons_of_mem _ hmem))
            hends
      | true => exact writeResults_windDown hturn.sound.flight

end SlotActor
end SerialPlatform
