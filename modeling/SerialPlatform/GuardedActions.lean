import SerialPlatform.LogHealthRuns
import SerialPlatform.SlotMoveRuns
import Mathlib.Data.List.DropRight

/-!
# Guarded actions

A guarded action names the boundary which its author saw: a cursor, the generation and
the TX offset.  The actor checks the boundary against the events of its ring right before
the action is handed over, and in every reachable state the ring tells the truth about the
trace.
-/

namespace SerialPlatform

/-! ## Behind a cursor -/

def Effect.timelineEvent : Effect → Option TimelineEvent
  | .event happened => some happened
  | _ => none

/-- The effect is an event which a cursor covers. -/
def Effect.isCovered (afterSeq : ℕ) : Effect → Bool
  | .event happened => happened.seq ≤ afterSeq
  | _ => false

/-- What a trace holds behind the last event which a cursor covers. -/
def behindCursor (afterSeq : ℕ) (trace : List Effect) : List Effect :=
  trace.rtakeWhile fun effect => !effect.isCovered afterSeq

def eventsOf (trace : List Effect) : List TimelineEvent := trace.filterMap Effect.timelineEvent

theorem mem_eventsOf {trace : List Effect} {event : TimelineEvent} :
    event ∈ eventsOf trace ↔ .event event ∈ trace := by
  unfold eventsOf
  rw [List.mem_filterMap]
  constructor
  · rintro ⟨effect, heffect, hevent⟩
    cases effect with
    | event happened =>
        cases hevent
        exact heffect
    | _ => cases hevent
  · intro hevent
    exact ⟨_, hevent, rfl⟩

/-- Behind a cursor stand exactly the events with greater numbers. -/
theorem mem_behindCursor {afterSeq : ℕ} {trace : List Effect}
    (hincreasing : ((eventsOf trace).map TimelineEvent.seq).Pairwise (· < ·))
    {event : TimelineEvent} :
    .event event ∈ behindCursor afterSeq trace ↔ .event event ∈ trace ∧ afterSeq < event.seq := by
  unfold behindCursor
  constructor
  · intro hevent
    have hkept := List.mem_rtakeWhile_imp hevent
    refine ⟨(List.rtakeWhile_suffix _ _).subset hevent, ?_⟩
    simpa [Effect.isCovered] using hkept
  · rintro ⟨hevent, hseq⟩
    have hsplit : trace.rdropWhile (fun effect => !effect.isCovered afterSeq) ++
        trace.rtakeWhile (fun effect => !effect.isCovered afterSeq) = trace :=
      List.rdropWhile_append_rtakeWhile
    rw [← hsplit] at hevent hincreasing
    rcases List.mem_append.1 hevent with hfront | hbehind
    swap
    · exact hbehind
    exfalso
    -- the last effect in front is an event which the cursor covers
    have hne := List.ne_nil_of_mem hfront
    have hlast := List.rdropWhile_last_not _ _ hne
    generalize hfrontEq : trace.rdropWhile (fun effect => !effect.isCovered afterSeq) = front
      at hfront hne hlast hincreasing
    rw [← List.dropLast_append_getLast hne] at hfront hincreasing
    generalize front.getLast hne = last at hlast hfront hincreasing
    cases last with
    | event covered =>
        have hcovered : covered.seq ≤ afterSeq := by
          simpa [Effect.isCovered] using hlast
        rcases List.mem_append.1 hfront with hearlier | hsame
        · simp only [eventsOf, List.filterMap_append, List.map_append,
            List.pairwise_append] at hincreasing
          have hlt := hincreasing.1.2.2 event.seq
            (List.mem_map_of_mem (mem_eventsOf.2 hearlier)) covered.seq
            (by simp [Effect.timelineEvent])
          omega
        · cases List.mem_singleton.1 hsame
          omega
    | _ => simp [Effect.isCovered] at hlast

namespace EventRing

theorem markDurable_origin {ring : EventRing} {seq : ℕ} {event : TimelineEvent}
    (hevent : event ∈ (ring.markDurable seq).timeline) :
    ∃ old ∈ ring.timeline, event = { old with durable := event.durable } := by
  have hfirst : ∀ {entries : List RingEntry} {entry : RingEntry},
      entry ∈ markDurableFirst seq entries →
        ∃ old ∈ entries, entry.event = { old.event with durable := entry.event.durable } := by
    intro entries
    induction entries with
    | nil =>
        intro entry hentry
        cases hentry
    | cons first rest ih =>
        intro entry hentry
        simp only [markDurableFirst] at hentry
        split at hentry
        · rcases List.mem_cons.1 hentry with rfl | hrest
          · exact ⟨first, List.mem_cons_self, rfl⟩
          · exact ⟨entry, List.mem_cons_of_mem _ hrest, rfl⟩
        · rcases List.mem_cons.1 hentry with rfl | hrest
          · exact ⟨entry, List.mem_cons_self, rfl⟩
          · obtain ⟨old, hold, hsame⟩ := ih hrest
            exact ⟨old, List.mem_cons_of_mem _ hold, hsame⟩
  simp only [timeline, markDurable, List.mem_map, List.mem_reverse] at hevent
  obtain ⟨entry, hentry, rfl⟩ := hevent
  obtain ⟨old, hold, hsame⟩ := hfirst hentry
  exact ⟨old.event, List.mem_map_of_mem (List.mem_reverse.1 hold), hsame⟩

end EventRing

namespace SlotActor

/-! ## The ring tells the truth -/

/-- The trace holds one event for each number, and the ring the newest of them. -/
structure Recorded (trace : List Effect) (ring : EventRing) (seq : ℕ) : Prop where
  numbers : (eventsOf trace).map TimelineEvent.seq = List.range' 1 seq
  holds : ring.Holds seq
  origin : ∀ event ∈ ring.timeline, ∃ recorded ∈ eventsOf trace,
    event = { recorded with durable := event.durable }

variable {trace : List Effect} {ring : EventRing} {seq : ℕ}

theorem Recorded.increasing (h : Recorded trace ring seq) :
    ((eventsOf trace).map TimelineEvent.seq).Pairwise (· < ·) := by
  rw [h.numbers]
  exact List.pairwise_lt_range'

theorem Recorded.push (h : Recorded trace ring seq) {event : TimelineEvent}
    (hseq : event.seq = seq + 1) (size : ℕ) :
    Recorded (trace ++ [.event event]) (ring.push event size) (seq + 1) where
  numbers := by
    unfold eventsOf
    rw [List.filterMap_append, List.map_append, ← eventsOf, h.numbers, List.range'_1_concat]
    simp only [Effect.timelineEvent, List.filterMap_cons, List.filterMap_nil, List.map_cons,
      List.map_nil, hseq]
    rw [Nat.add_comm]
  holds := h.holds.push hseq size
  origin := by
    intro other hother
    rcases EventRing.mem_push hother with hold | rfl
    · obtain ⟨recorded, hrecorded, hsame⟩ := h.origin other hold
      refine ⟨recorded, ?_, hsame⟩
      rw [mem_eventsOf] at hrecorded ⊢
      exact List.mem_append_left _ hrecorded
    · refine ⟨other, ?_, rfl⟩
      rw [mem_eventsOf]
      exact List.mem_append_right _ List.mem_cons_self

theorem Recorded.act (h : Recorded trace ring seq) {effect : Effect}
    (heffect : effect.isEvent = false) : Recorded (trace ++ [effect]) ring seq := by
  have hsame : eventsOf (trace ++ [effect]) = eventsOf trace := by
    unfold eventsOf
    rw [List.filterMap_append]
    cases effect with
    | event happened => cases heffect
    | _ => exact List.append_nil _
  constructor
  · rw [hsame]
    exact h.numbers
  · exact h.holds
  · rw [hsame]
    exact h.origin

theorem Recorded.markDurable (h : Recorded trace ring seq) (number : ℕ) :
    Recorded trace (ring.markDurable number) seq where
  numbers := h.numbers
  holds := h.holds.markDurable number
  origin := by
    intro event hevent
    obtain ⟨old, hold, hsame⟩ := EventRing.markDurable_origin hevent
    obtain ⟨recorded, hrecorded, horigin⟩ := h.origin old hold
    refine ⟨recorded, hrecorded, ?_⟩
    rw [hsame, horigin]

/-! ## Every move keeps it so -/

/-- One more event stands in the trace and in the ring. -/
structure Pushes (event : TimelineEvent) (s t : SlotActor) : Prop where
  seq : event.seq = s.nextSeq
  trace : t.trace = s.trace ++ [.event event]
  ring : ∃ size, t.timeline.ring = s.timeline.ring.push event size
  next : t.timeline.seq = event.seq
  daemonEpoch : t.daemonEpoch = s.daemonEpoch

/-- A state in which the timeline is as in another one. -/
structure SameRecord (s t : SlotActor) : Prop where
  trace : t.trace = s.trace
  ring : t.timeline.ring = s.timeline.ring
  seq : t.timeline.seq = s.timeline.seq
  daemonEpoch : t.daemonEpoch = s.daemonEpoch

theorem pushes_publishNondurableLoggingEvent (error : String) (s : SlotActor) :
    ∃ note, Pushes note s (s.publishNondurableLoggingEvent error) :=
  ⟨_, rfl, rfl, ⟨_, rfl⟩, rfl, rfl⟩

theorem sameRecord_markLoggingDegradedAt (error : String) (seq : ℕ) (s : SlotActor) :
    SameRecord s (s.markLoggingDegradedAt error seq).1 := by
  unfold markLoggingDegradedAt
  split <;> exact ⟨rfl, rfl, rfl, rfl⟩

theorem SameRecord.trans {s t u : SlotActor} (hst : SameRecord s t) (htu : SameRecord t u) :
    SameRecord s u :=
  ⟨htu.trace.trans hst.trace, htu.ring.trans hst.ring, htu.seq.trans hst.seq,
    htu.daemonEpoch.trans hst.daemonEpoch⟩

theorem sameRecord_trackJournalAck (seq : ℕ) (ack : JournalAck) (permit alreadyTimedOut : Bool)
    (s : SlotActor) : SameRecord s (s.trackJournalAck seq ack permit alreadyTimedOut).1 := by
  unfold trackJournalAck
  split <;> exact ⟨rfl, rfl, rfl, rfl⟩

theorem sameRecord_journalEvent (eventSeq : ℕ) (s : SlotActor) :
    SameRecord s (s.journalEvent eventSeq).1 := by
  have hmark : ∀ (s : SlotActor) (error : String),
      SameRecord s (degradation error (s.markLoggingDegraded error)).1 :=
    fun s error => s.sameRecord_markLoggingDegradedAt error _
  unfold journalEvent
  cases s.answer.journal with
  | refused error => exact hmark s error
  | accepted ack permit =>
      simp only
      split
      · cases ack with
        | durable => exact ⟨rfl, rfl, rfl, rfl⟩
        | failed error => exact hmark s error
        | late result => exact (hmark s _).trans (sameRecord_trackJournalAck _ _ _ _ _)
      · have htrack := s.sameRecord_trackJournalAck eventSeq ack permit false
        cases htracked : s.trackJournalAck eventSeq ack permit false with
        | mk tracked outcome =>
            rw [htracked] at htrack
            cases outcome with
            | ok _ => exact htrack
            | error error => exact htrack.trans (hmark tracked error)

/-- An emission pushes one event and perhaps a note. -/
theorem pushes_emitInner (kind : EventKind) (direction : Direction) (data : Bytes)
    (actor : Option Actor) (operationId runId : Option Uuid) (metadata : Metadata)
    (s : SlotActor) :
    ∃ event t, Pushes event s t ∧
      (s.emitInner kind direction data actor operationId runId metadata = t ∨
        ∃ note, Pushes note t
          (s.emitInner kind direction data actor operationId runId metadata)) := by
  unfold emitInner
  extract_lets asked eventSeq offsets moved s₂ journaled event delivered
  have hjournaled : SameRecord s₂ journaled.1 := s₂.sameRecord_journalEvent eventSeq
  have hring : s₂.timeline.ring = s.timeline.ring := by
    cases direction <;> rfl
  have hdelivered : Pushes event s delivered := by
    refine ⟨rfl, ?_, ⟨journaled.1.answer.eventSize, ?_⟩, ?_, hjournaled.daemonEpoch⟩
    · exact congrArg (· ++ [Effect.event event]) hjournaled.trace
    · rw [← hring, ← hjournaled.ring]
      rfl
    · exact hjournaled.seq
  refine ⟨event, delivered, hdelivered, ?_⟩
  split
  · exact .inr (pushes_publishNondurableLoggingEvent _ _)
  · exact .inl rfl

def TellsTruth (s : SlotActor) : Prop := Recorded s.trace s.timeline.ring s.timeline.seq

/-- The counter never falls, and as long as it is not exhausted the ring keeps telling the
truth. -/
structure Grows (s t : SlotActor) : Prop where
  cap : s.timeline.seq ≤ u64Max → t.timeline.seq ≤ u64Max
  seq_le : s.timeline.seq ≤ u64Max → s.timeline.seq ≤ t.timeline.seq
  recorded : t.timeline.seq < u64Max → s.TellsTruth → t.TellsTruth
  daemonEpoch : t.daemonEpoch = s.daemonEpoch
  history : s.trace <+: t.trace

theorem Grows.trans {s t u : SlotActor} (hst : Grows s t) (htu : Grows t u)
    (hcap : s.timeline.seq ≤ u64Max) : Grows s u where
  cap h := htu.cap (hst.cap h)
  seq_le h := (hst.seq_le h).trans (htu.seq_le (hst.cap h))
  recorded hroom h :=
    htu.recorded hroom (hst.recorded (lt_of_le_of_lt (htu.seq_le (hst.cap hcap)) hroom) h)
  daemonEpoch := htu.daemonEpoch.trans hst.daemonEpoch
  history := hst.history.trans htu.history

theorem SameRecord.grows {s t : SlotActor} (h : SameRecord s t) : Grows s t where
  cap hcap := h.seq ▸ hcap
  seq_le _ := le_of_eq h.seq.symm
  recorded _ hrecorded := by
    unfold TellsTruth
    rw [h.trace, h.ring, h.seq]
    exact hrecorded
  daemonEpoch := h.daemonEpoch
  history := h.trace ▸ List.prefix_rfl

theorem Pushes.grows {s t : SlotActor} {event : TimelineEvent} (h : Pushes event s t) :
    Grows s t where
  cap _ := by
    rw [h.next, h.seq]
    exact satAdd_le_cap _ _ _
  seq_le hcap := by
    rw [h.next, h.seq]
    exact le_satAdd 1 hcap
  recorded hroom hrecorded := by
    obtain ⟨size, hring⟩ := h.ring
    have hseq : event.seq = s.timeline.seq + 1 := by
      have hnext := h.next
      have hsat := h.seq
      unfold nextSeq satAdd at hsat
      omega
    unfold TellsTruth
    rw [h.trace, hring, h.next, hseq]
    exact hrecorded.push hseq size
  daemonEpoch := h.daemonEpoch
  history := h.trace ▸ List.prefix_append _ _

theorem grows_handleJournalAckResult (seq : ℕ) (outcome : JournalAckOutcome) (s : SlotActor)
    (hcap : s.timeline.seq ≤ u64Max) : Grows s (s.handleJournalAckResult seq outcome) := by
  have hdegrade : ∀ error : String, Grows s
      (let marked := s.markLoggingDegradedAt error seq
       if marked.2 then marked.1.publishNondurableLoggingEvent error else marked.1) := by
    intro error
    have hmarked := (s.sameRecord_markLoggingDegradedAt error seq).grows
    simp only
    split
    · obtain ⟨note, hnote⟩ :=
        pushes_publishNondurableLoggingEvent error (s.markLoggingDegradedAt error seq).1
      exact hmarked.trans hnote.grows hcap
    · exact hmarked
  cases outcome with
  | durable =>
      have hmarked : Grows s { s with timeline.ring := s.timeline.ring.markDurable seq } :=
        ⟨id, fun _ => le_refl _, fun _ h => h.markDurable seq, rfl, List.prefix_rfl⟩
      simp only [handleJournalAckResult]
      split
      · refine hmarked.trans (SameRecord.grows ?_) hcap
        split <;> exact ⟨rfl, rfl, rfl, rfl⟩
      · exact hmarked
  | failed error => exact hdegrade error
  | timedOut => exact hdegrade _

theorem grows_takeJournalAck (index : ℕ) (s : SlotActor) (hcap : s.timeline.seq ≤ u64Max) :
    Grows s (s.takeJournalAck index) := by
  unfold takeJournalAck
  extract_lets asked
  have hasked : SameRecord s asked := ⟨rfl, rfl, rfl, rfl⟩
  split
  · exact hasked.grows
  · split
    · exact hasked.grows
    · rename_i pending outcome rest _
      extract_lets remaining
      have hremaining : SameRecord s { asked with timeline.pendingAcks := remaining } :=
        ⟨rfl, rfl, rfl, rfl⟩
      exact hremaining.grows.trans (grows_handleJournalAckResult _ _ _ hcap) hcap

theorem Move.grows {s t : SlotActor} (h : Move s t) (hcap : s.timeline.seq ≤ u64Max) :
    Grows s t := by
  cases h with
  | emit kind direction data actor operationId runId metadata hkind =>
      obtain ⟨event, u, hpushes, hrest⟩ :=
        s.pushes_emitInner kind direction data actor operationId runId metadata
      rcases hrest with rfl | ⟨note, hnote⟩
      · exact hpushes.grows
      · exact hpushes.grows.trans hnote.grows hcap
  | acknowledge index => exact s.grows_takeJournalAck index hcap
  | act effect heffect =>
      exact ⟨id, fun _ => le_refl _, fun _ h => h.act heffect, rfl, List.prefix_append _ _⟩
  | quiet hsame =>
      have htimeline := hsame.timeline
      exact SameRecord.grows ⟨hsame.trace, by rw [htimeline], by rw [htimeline],
        hsame.daemonEpoch⟩

theorem Moves.grows {s t : SlotActor} (h : Moves s t) (hcap : s.timeline.seq ≤ u64Max) :
    Grows s t := by
  induction h with
  | refl => exact SameRecord.grows ⟨rfl, rfl, rfl, rfl⟩
  | tail _ hstep ih => exact ih.trans (hstep.grows (ih.cap hcap)) hcap

section Spawned

variable (config : SlotConfig) (transportProfile : Option TransportProfile)
  (modelProfile : Option ModelProfile) (limits : ControlLimits) (instantMax : ℕ)
  (daemonEpoch : Uuid) (daemonStarted : ℕ) (world : World) (stagedSource : Option String)

theorem tellsTruth_spawn :
    (spawn config transportProfile modelProfile limits instantMax daemonEpoch daemonStarted world
      stagedSource).TellsTruth where
  numbers := rfl
  holds := EventRing.holds_new _ _
  origin := by
    intro event hevent
    cases hevent

/-- In every reachable state the ring tells the truth about the trace. -/
theorem tellsTruth_of_moves {s : SlotActor}
    (hrun : Moves (spawn config transportProfile modelProfile limits instantMax daemonEpoch
      daemonStarted world stagedSource) s)
    (hroom : s.timeline.seq < u64Max) : s.TellsTruth :=
  (hrun.grows (Nat.zero_le _)).recorded hroom (tellsTruth_spawn _ _ _ _ _ _ _ _ _)

end Spawned

/-! ## The boundary -/

/-- Since the cursor no TX and no receive gap was recorded, everything which was recorded
is still in the ring, and the port is in the epoch, the generation and at the TX offset
which the precondition names. -/
structure Undisturbed (precondition : SequenceWritePrecondition) (s : SlotActor) : Prop where
  epoch : precondition.cursor.epoch = s.daemonEpoch
  generation : precondition.expectedGeneration = s.port.generation
  txOffset : precondition.expectedTxOffset = s.timeline.txOffset
  reached : precondition.cursor.afterSeq ≤ s.timeline.seq
  quiet : ∀ event, .event event ∈ behindCursor precondition.cursor.afterSeq s.trace →
    event.kind ≠ .gap ∧ event.direction ≠ .tx
  retained : ∀ seq, precondition.cursor.afterSeq < seq → seq ≤ s.timeline.seq →
    ∃ event ∈ s.timeline.ring.timeline, event.seq = seq

/-- The ring holds all events behind a cursor unless it begins later. -/
theorem Recorded.retained_iff (h : Recorded trace ring seq) {afterSeq : ℕ}
    (hbehind : afterSeq < seq) (hroom : seq < u64Max) :
    (∀ number, afterSeq < number → number ≤ seq → ∃ event ∈ ring.timeline, event.seq = number) ↔
      ¬∀ first, ring.oldestSeq = some first → satAdd u64Max afterSeq 1 < first := by
  have hadd : satAdd u64Max afterSeq 1 = afterSeq + 1 := satAdd_eq_add (by omega)
  have hmem : ∀ number, (∃ event ∈ ring.timeline, event.seq = number) ↔
      seq < number + ring.timeline.length ∧ number ≤ seq := by
    intro number
    rw [← h.holds.mem_iff]
    simp [seqs]
  simp only [hmem, hadd, h.holds.oldestSeq]
  constructor
  · intro hall hlater
    obtain ⟨hfirst, -⟩ := hall (afterSeq + 1) (Nat.lt_succ_self _) hbehind
    have hne : ring.timeline ≠ [] := by
      intro hnil
      rw [hnil] at hfirst
      simp only [List.length_nil] at hfirst
      omega
    have hlt := hlater _ (if_neg hne)
    omega
  · intro hnot number hafter hle
    push Not at hnot
    obtain ⟨first, hfirst, hle'⟩ := hnot
    split at hfirst
    · cases hfirst
    · cases hfirst
      omega

/-- What the ring shows behind a cursor is what the trace holds there. -/
theorem Recorded.quiet_iff (h : Recorded trace ring seq) {afterSeq : ℕ}
    (hretained : ∀ number, afterSeq < number → number ≤ seq →
      ∃ event ∈ ring.timeline, event.seq = number) :
    (∀ event ∈ ring.timeline, afterSeq < event.seq ∧ event.seq ≤ seq →
      event.kind ≠ .gap ∧ event.direction ≠ .tx) ↔
      ∀ event, .event event ∈ behindCursor afterSeq trace →
        event.kind ≠ .gap ∧ event.direction ≠ .tx := by
  constructor
  · intro hquiet event hevent
    obtain ⟨hmem, hafter⟩ := (mem_behindCursor h.increasing).1 hevent
    have hle : event.seq ≤ seq := by
      have hnumber : event.seq ∈ (eventsOf trace).map TimelineEvent.seq :=
        List.mem_map_of_mem (mem_eventsOf.2 hmem)
      rw [h.numbers, List.mem_range'_1] at hnumber
      omega
    obtain ⟨kept, hkept, hsame⟩ := hretained event.seq hafter hle
    obtain ⟨recorded, hrecorded, horigin⟩ := h.origin kept hkept
    have hdistinct : ((eventsOf trace).map TimelineEvent.seq).Nodup :=
      h.increasing.imp fun hlt => Nat.ne_of_lt hlt
    have hone : recorded = event := by
      apply List.inj_on_of_nodup_map hdistinct hrecorded (mem_eventsOf.2 hmem)
      rw [← hsame, horigin]
    have hkeptQuiet := hquiet kept hkept (by omega)
    rw [horigin, hone] at hkeptQuiet
    exact hkeptQuiet
  · intro hquiet event hevent hbetween
    obtain ⟨recorded, hrecorded, horigin⟩ := h.origin event hevent
    have hseq : recorded.seq = event.seq := by
      rw [horigin]
    have hrecordedQuiet := hquiet recorded
      ((mem_behindCursor h.increasing).2 ⟨mem_eventsOf.1 hrecorded, by omega⟩)
    rw [horigin]
    exact hrecordedQuiet

/-- The check accepts exactly an undisturbed boundary, whatever was received. -/
theorem checkPrecondition_iff {s : SlotActor} (h : s.TellsTruth)
    (hroom : s.timeline.seq < u64Max) (precondition : SequenceWritePrecondition) :
    s.checkPrecondition (some precondition) = .ok () ↔ Undisturbed precondition s := by
  obtain ⟨⟨epoch, afterSeq⟩, expectedGeneration, expectedTxOffset⟩ := precondition
  simp only [checkPrecondition, validateSequenceWritePrecondition]
  by_cases hepoch : epoch = s.daemonEpoch
  swap
  · simp only [hepoch, ne_eq, not_false_eq_true, if_true]
    exact ⟨fun herror => (by cases herror), fun hquiet => absurd hquiet.epoch hepoch⟩
  by_cases hgeneration : expectedGeneration = s.port.generation
  swap
  · simp only [hepoch, hgeneration, ne_eq, not_true_eq_false, not_false_eq_true, if_true,
      if_false]
    exact ⟨fun herror => (by cases herror), fun hquiet => absurd hquiet.generation hgeneration⟩
  by_cases hoffset : expectedTxOffset = s.timeline.txOffset
  swap
  · simp only [hepoch, hgeneration, hoffset, ne_eq, not_true_eq_false, not_false_eq_true,
      if_true, if_false]
    exact ⟨fun herror => (by cases herror), fun hquiet => absurd hquiet.txOffset hoffset⟩
  simp only [hepoch, hgeneration, hoffset, ne_eq, not_true_eq_false, if_false, EventRing.replay]
  by_cases hahead : s.timeline.seq < afterSeq
  · simp only [hahead, if_true]
    refine ⟨fun herror => (by cases herror), fun hquiet => ?_⟩
    have hreached := hquiet.reached
    simp only at hreached
    omega
  by_cases hequal : afterSeq = s.timeline.seq
  · simp only [hequal, lt_irrefl, if_false, if_true, List.find?_nil, true_iff]
    refine ⟨rfl, rfl, rfl, le_refl _, ?_, ?_⟩
    · intro event hevent
      obtain ⟨hmem, hafter⟩ := (mem_behindCursor h.increasing).1 hevent
      have hnumber : event.seq ∈ (eventsOf s.trace).map TimelineEvent.seq :=
        List.mem_map_of_mem (mem_eventsOf.2 hmem)
      rw [h.numbers, List.mem_range'_1] at hnumber
      simp only at hafter
      omega
    · intro seq hafter hle
      simp only at hafter
      omega
  simp only [hahead, hequal, if_false]
  have hbehind : afterSeq < s.timeline.seq := by
    omega
  have hretained := h.retained_iff hbehind hroom
  by_cases hevicted : ∀ first, s.timeline.ring.oldestSeq = some first →
      satAdd u64Max afterSeq 1 < first
  · simp only [if_pos hevicted]
    refine ⟨fun herror => (by cases herror), fun hquiet => ?_⟩
    exact absurd hevicted (hretained.1 hquiet.retained)
  · simp only [if_neg hevicted]
    have hall := hretained.2 hevicted
    have hquiet := h.quiet_iff hall
    split
    · rename_i event hfound
      refine ⟨fun herror => (by cases herror), fun hundisturbed => ?_⟩
      have hmem := List.mem_of_find?_eq_some hfound
      have hwhy := List.find?_some hfound
      rw [List.mem_filter, decide_eq_true_eq] at hmem
      have hcalm := hquiet.2 hundisturbed.quiet event hmem.1 hmem.2
      simp [hcalm.1, hcalm.2] at hwhy
    · rename_i hnone
      rw [List.find?_eq_none] at hnone
      refine ⟨fun _ => ⟨rfl, rfl, rfl, le_of_lt hbehind, ?_, hall⟩, fun _ => rfl⟩
      apply hquiet.1
      intro event hevent hbetween
      have hcalm := hnone event (List.mem_filter.2 ⟨hevent, decide_eq_true hbetween⟩)
      simpa [not_or] using hcalm

/-! ## The hand-over -/

/-- The four commands which may carry a precondition. -/
inductive GuardedAction where
  | write (origin : Origin) (actor : Actor) (controlId : Uuid) (fence : ℕ) (data : Bytes)
      (operationId expectedRunId : Option Uuid) (pacing : Option WritePacing)
      (description : Option String) (commandCaptureMatchers : List CommandCaptureMatcher)
      (commandSequence : Option CommandSequenceAuditContext) (cooperative : Bool)
  | sendBreak (origin : Origin) (actor : Actor) (controlId : Uuid) (fence durationMs : ℕ)
      (operationId expectedRunId : Option Uuid)
  | startTrigger (origin : Origin) (actor : Actor) (controlId : Uuid) (fence : ℕ)
      (daemonEpoch : Uuid) (generation : ℕ) (operationId expectedRunId : Option Uuid)
      (spec : TriggerSpec)
  | startMacro (actor : Actor) (controlId : Uuid) (fence : ℕ) (daemonEpoch : Uuid)
      (generation : ℕ) (operationId : Uuid) (expectedRunId : Option Uuid)
      (prepared : PreparedMacro)

/-- The command as the actor executes it. -/
def GuardedAction.perform (precondition : SequenceWritePrecondition) (s : SlotActor) :
    GuardedAction → Executed
  | .write origin actor controlId fence data operationId expectedRunId pacing description
      commandCaptureMatchers commandSequence cooperative =>
      s.execute origin (.write actor controlId fence data operationId expectedRunId pacing
        description commandCaptureMatchers commandSequence (some precondition) cooperative)
  | .sendBreak origin actor controlId fence durationMs operationId expectedRunId =>
      s.execute origin (.sendBreak actor controlId fence durationMs operationId expectedRunId
        (some precondition))
  | .startTrigger origin actor controlId fence daemonEpoch generation operationId
      expectedRunId spec =>
      s.execute origin (.startTrigger actor controlId fence daemonEpoch generation operationId
        expectedRunId (some precondition) spec)
  | .startMacro actor controlId fence daemonEpoch generation operationId expectedRunId
      prepared =>
      s.expireControl.executeMacroStart actor controlId fence daemonEpoch generation
        operationId expectedRunId (some precondition) prepared

/-- The state in which the boundary is checked: a Trigger waits for the reader before. -/
def GuardedAction.boundary (s : SlotActor) : GuardedAction → SlotActor
  | .startTrigger .. =>
      ((s.expireControl.ask.setArming true).flushPretriggerRx.1.setArming false).ask
  | _ => s.expireControl.ask

end SlotActor

/-- The port writer, or the Trigger which drives it, takes an action. -/
def Effect.isHandOver : Effect → Bool
  | .portWrite .. => true
  | .portBreak .. => true
  | .triggerArmed .. => true
  | _ => false

def Effect.isBreak : Effect → Bool
  | .event happened => happened.kind = .uartBreak
  | _ => false

namespace SlotActor

/-- Behind a state the trace shows a hand-over. -/
def HandsOver (s t : SlotActor) : Prop :=
  ∃ effect ∈ t.trace.drop s.trace.length, effect.isHandOver = true

theorem not_handsOver_of_le {s t : SlotActor} (h : t.trace.length ≤ s.trace.length) :
    ¬HandsOver s t := by
  rintro ⟨effect, heffect, -⟩
  rw [List.drop_eq_nil_of_le h] at heffect
  cases heffect

/-- The command is handed over: the trace shows it behind the boundary, or the macro which
drives the port is installed. -/
def GuardedAction.IsHandedOver (precondition : SequenceWritePrecondition) (s : SlotActor)
    (action : GuardedAction) : Prop :=
  match action with
  | .startMacro .. =>
      (action.perform precondition s).1.macros.activeMacro ≠
        (action.boundary s).macros.activeMacro
  | _ => HandsOver (action.boundary s) (action.perform precondition s).1

section Checks

variable {s : SlotActor} {precondition : Option SequenceWritePrecondition}

theorem checkWrite_boundary {actor : Actor} {controlId : Uuid} {fence : ℕ} {data : Bytes}
    {expectedRunId : Option Uuid} {pacing : Option WritePacing} {cooperative : Bool}
    {resolved : WritePacing}
    (h : s.checkWrite actor controlId fence data expectedRunId pacing precondition
      cooperative = .ok resolved) :
    s.checkPrecondition precondition = .ok () := by
  unfold checkWrite at h
  obtain ⟨_, -, h⟩ := Except.exists_of_bind_ok h
  obtain ⟨_, -, h⟩ := Except.exists_of_bind_ok h
  cases cooperative with
  | false =>
      simp only [Bool.false_eq_true, if_false] at h
      obtain ⟨_, -, h⟩ := Except.exists_of_bind_ok h
      obtain ⟨_, -, h⟩ := Except.exists_of_bind_ok h
      obtain ⟨_, -, h⟩ := Except.exists_of_bind_ok h
      obtain ⟨_, -, h⟩ := Except.exists_of_bind_ok h
      obtain ⟨_, -, h⟩ := Except.exists_of_bind_ok h
      obtain ⟨_, -, h⟩ := Except.exists_of_bind_ok h
      obtain ⟨_, hchecked, -⟩ := Except.exists_of_bind_ok h
      exact hchecked
  | true =>
      simp only [if_true] at h
      obtain ⟨_, -, h⟩ := Except.exists_of_bind_ok h
      obtain ⟨_, -, h⟩ := Except.exists_of_bind_ok h
      obtain ⟨_, -, h⟩ := Except.exists_of_bind_ok h
      obtain ⟨_, -, h⟩ := Except.exists_of_bind_ok h
      obtain ⟨_, -, h⟩ := Except.exists_of_bind_ok h
      obtain ⟨_, -, h⟩ := Except.exists_of_bind_ok h
      obtain ⟨_, hchecked, -⟩ := Except.exists_of_bind_ok h
      exact hchecked

theorem checkSendBreak_boundary {actor : Actor} {controlId : Uuid} {fence durationMs : ℕ}
    {expectedRunId : Option Uuid}
    (h : s.checkSendBreak actor controlId fence durationMs expectedRunId precondition =
      .ok ()) :
    s.checkPrecondition precondition = .ok () := by
  unfold checkSendBreak at h
  obtain ⟨_, -, h⟩ := Except.exists_of_bind_ok h
  obtain ⟨_, -, h⟩ := Except.exists_of_bind_ok h
  obtain ⟨_, -, h⟩ := Except.exists_of_bind_ok h
  obtain ⟨_, -, h⟩ := Except.exists_of_bind_ok h
  obtain ⟨_, -, h⟩ := Except.exists_of_bind_ok h
  obtain ⟨_, -, h⟩ := Except.exists_of_bind_ok h
  exact h

theorem recheckStartTrigger_boundary {actor : Actor} {controlId : Uuid}
    {fence generation : ℕ} {expectedRunId : Option Uuid}
    (h : s.recheckStartTrigger actor controlId fence generation expectedRunId
      precondition = .ok ()) :
    s.checkPrecondition precondition = .ok () := by
  unfold recheckStartTrigger at h
  obtain ⟨-, -, h⟩ := Except.exists_of_bind_ok h
  obtain ⟨-, -, h⟩ := Except.exists_of_bind_ok h
  obtain ⟨-, -, h⟩ := Except.exists_of_bind_ok h
  exact h

theorem checkMacroStart_boundary {prepared : PreparedMacro}
    (h : s.checkMacroStart precondition prepared = .ok ()) :
    s.checkPrecondition precondition = .ok () := by
  unfold checkMacroStart at h
  obtain ⟨-, -, h⟩ := Except.exists_of_bind_ok h
  obtain ⟨-, -, h⟩ := Except.exists_of_bind_ok h
  obtain ⟨-, -, h⟩ := Except.exists_of_bind_ok h
  obtain ⟨_, hchecked, -⟩ := Except.exists_of_bind_ok h
  exact hchecked

end Checks

theorem GuardedAction.moves_boundary (action : GuardedAction) (s : SlotActor) :
    Moves s (action.boundary s) := by
  have hasked : Moves s s.expireControl.ask := s.moves_expireControl.trans (moves_ask _)
  cases action with
  | startTrigger =>
      exact (hasked.trans (moves_flushedForTrigger _)).trans (moves_ask _)
  | write => exact hasked
  | sendBreak => exact hasked
  | startMacro => exact hasked

theorem GuardedAction.boundary_of_isHandedOver {precondition : SequenceWritePrecondition}
    {s : SlotActor} {action : GuardedAction} (hcap : s.timeline.seq ≤ u64Max)
    (h : action.IsHandedOver precondition s) :
    (action.boundary s).checkPrecondition (some precondition) = .ok () := by
  cases action with
  | write origin actor controlId fence data operationId expectedRunId pacing description
      commandCaptureMatchers commandSequence cooperative =>
      simp only [IsHandedOver, perform, execute, boundary] at h ⊢
      unfold executeWrite at h
      extract_lets asked at h
      split at h
      · exact absurd h (not_handsOver_of_le (le_refl _))
      · exact checkWrite_boundary ‹_›
  | sendBreak origin actor controlId fence durationMs operationId expectedRunId =>
      simp only [IsHandedOver, perform, execute, boundary] at h ⊢
      unfold executeSendBreak at h
      extract_lets asked at h
      split at h
      · exact absurd h (not_handsOver_of_le (le_refl _))
      · exact checkSendBreak_boundary ‹_›
  | startTrigger origin actor controlId fence daemonEpoch generation operationId
      expectedRunId spec =>
      simp only [IsHandedOver, perform, execute, boundary] at h ⊢
      unfold executeStartTrigger at h
      extract_lets asked flushed waiting checked armed trigger at h
      have hwaiting : asked.trace.length ≤ waiting.trace.length :=
        (asked.moves_flushedForTrigger.grows
          ((s.moves_expireControl.trans (moves_ask _)).grows hcap |>.cap hcap)).history.length_le
      split at h
      · exact absurd h (not_handsOver_of_le hwaiting)
      · split at h
        · exact absurd h (not_handsOver_of_le (le_refl _))
        · split at h
          · exact absurd h (not_handsOver_of_le (le_refl _))
          · exact recheckStartTrigger_boundary ‹_›
  | startMacro actor controlId fence daemonEpoch generation operationId expectedRunId
      prepared =>
      simp only [IsHandedOver, perform, boundary] at h ⊢
      unfold executeMacroStart at h
      extract_lets asked fingerprint info installed result at h
      split at h
      · exact absurd rfl h
      · split at h
        · exact absurd rfl h
        · split at h
          · exact absurd rfl h
          · exact checkMacroStart_boundary ‹_›

section Spawned

variable (config : SlotConfig) (transportProfile : Option TransportProfile)
  (modelProfile : Option ModelProfile) (limits : ControlLimits) (instantMax : ℕ)
  (daemonEpoch : Uuid) (daemonStarted : ℕ) (world : World) (stagedSource : Option String)

/-- In every reachable state a guarded action is handed over only at an undisturbed
boundary, and an undisturbed boundary is never the reason of a refusal: what was received
meanwhile does not count. -/
theorem guarded_undisturbed {s : SlotActor}
    (hrun : Moves (spawn config transportProfile modelProfile limits instantMax daemonEpoch
      daemonStarted world stagedSource) s)
    (action : GuardedAction) (precondition : SequenceWritePrecondition)
    (hroom : (action.boundary s).timeline.seq < u64Max) :
    (action.IsHandedOver precondition s → Undisturbed precondition (action.boundary s)) ∧
      ((action.boundary s).checkPrecondition (some precondition) = .ok () ↔
        Undisturbed precondition (action.boundary s)) := by
  have htruth : (action.boundary s).TellsTruth :=
    tellsTruth_of_moves _ _ _ _ _ _ _ _ _ (hrun.trans (action.moves_boundary s)) hroom
  have hcap : s.timeline.seq ≤ u64Max := (hrun.grows (Nat.zero_le _)).cap (Nat.zero_le _)
  have hcheck := checkPrecondition_iff htruth hroom precondition
  exact ⟨fun h => hcheck.1 (GuardedAction.boundary_of_isHandedOver hcap h), hcheck⟩

end Spawned

/-! ## A BREAK leaves no mark -/

def obligingAnswer : Answer where
  elapsed := 1
  wall := 0
  uuid := 7
  eventSize := 1
  journal := .accepted .durable true
  send := .sent
  writer := [.accepted 1]
  breaking := some { assertResult := .ok (), cancelled := false, clearResult := .ok () }
  ready := false
  endpointPresent := true
  opened := .ok
    { polls := []
      lateReasons := []
      queueOpen := by
        intro poll hpoll
        cases hpoll }
  macroStart := none
  macroRecordFits := true
  macroDriverGone := false

/-- The port of a world in which everything works. -/
def obligingPort : SlotActor :=
  spawn
    { port := "ttyUSB0"
      transportProfile := none
      modelProfile := none
      modelFamily := none
      modelName := none
      enabled := true }
    none none {} (10 ^ 18) 5 0 { answers := fun _ => obligingAnswer, asked := 0, clock := 0 } none

def operator : Actor := { id := "operator", label := "operator", kind := .human }

/-- The operator acquired control and sent a BREAK. -/
def afterBreak : SlotActor :=
  run
    [.maintenance, .command (.request 1 (.acquire operator .queue 60000)),
      .command (.request 2 (.sendBreak operator 7 1 10 (some 9) none none))]
    obligingPort.start

theorem moves_afterBreak : Moves obligingPort afterBreak :=
  (moves_start _).trans (moves_run _ _)

def writeAfterBreak : GuardedAction :=
  .write (.request 3) operator 7 1 [65] (some 10) none none none [] none false

/-- The boundary behind the event with a number. -/
def boundaryAt (afterSeq : ℕ) : SequenceWritePrecondition where
  cursor := { epoch := 5, afterSeq := afterSeq }
  expectedGeneration := 1
  expectedTxOffset := 0

theorem HandsOver.of_any {s t : SlotActor}
    (h : (t.trace.drop s.trace.length).any Effect.isHandOver = true) : HandsOver s t := by
  obtain ⟨effect, heffect, hhandOver⟩ := List.any_eq_true.1 h
  exact ⟨effect, heffect, hhandOver⟩

theorem guarded_undisturbed_afterBreak :
    writeAfterBreak.IsHandedOver (boundaryAt 4) afterBreak ∧
      Undisturbed (boundaryAt 4) (writeAfterBreak.boundary afterBreak) := by
  have hover : writeAfterBreak.IsHandedOver (boundaryAt 4) afterBreak :=
    HandsOver.of_any (by decide)
  exact ⟨hover, (guarded_undisturbed _ _ _ _ _ _ _ _ _ moves_afterBreak writeAfterBreak
    (boundaryAt 4) (by decide)).1 hover⟩

/-- A write which was planned before a BREAK is handed over behind it. -/
theorem break_crosses_boundary :
    Moves obligingPort afterBreak ∧
      writeAfterBreak.IsHandedOver (boundaryAt 3) afterBreak ∧
      ∃ event, .event event ∈
          behindCursor (boundaryAt 3).cursor.afterSeq (writeAfterBreak.boundary afterBreak).trace ∧
        event.kind = .uartBreak := by
  have hbreak : (behindCursor (boundaryAt 3).cursor.afterSeq
      (writeAfterBreak.boundary afterBreak).trace).any Effect.isBreak = true := by
    decide
  obtain ⟨effect, heffect, hkind⟩ := List.any_eq_true.1 hbreak
  refine ⟨moves_afterBreak, HandsOver.of_any (by decide), ?_⟩
  cases effect with
  | event happened => exact ⟨happened, heffect, by simpa [Effect.isBreak] using hkind⟩
  | _ => cases hkind

end SlotActor
end SerialPlatform
