import SerialPlatform.LiveTailPages
import SerialPlatform.SlotTurn

/-!
# The health of the log

The journal answers at once or later, once or twice, and in any order.  What was
offered to it is kept beside the actor, with how it answers; the logging state
then follows the newest event of which anything was heard.
-/

namespace SerialPlatform

/-! ## What the journal answers -/

/-- An event which was offered to the journal, and whether the actor waited. -/
structure Offered where
  seq : ℕ
  answer : JournalAnswer
  waited : Bool

namespace Offered

/-- The append succeeded, in time or not. -/
def wrote (offered : Offered) : Bool :=
  match offered.answer with
  | .accepted .durable _ | .accepted (.late (.ok ())) _ => true
  | _ => false

/-- The actor hears the last word of the journal: it comes in time while the actor
waits, or the acknowledgement is tracked. -/
def heard (offered : Offered) : Bool :=
  match offered.answer with
  | .refused _ => true
  | .accepted ack permit =>
      permit || offered.waited && match ack with
        | .late _ => false
        | _ => true

/-- What is known when the event is emitted. -/
def sync (offered : Offered) : Option Bool :=
  match offered.answer with
  | .refused _ => some false
  | .accepted ack permit =>
      if offered.waited then
        match ack with
        | .durable => some true
        | _ => some false
      else if permit then
        none
      else
        some false

/-- What a forwarding task delivers afterwards. -/
def async (offered : Offered) : List JournalAckOutcome :=
  match offered.answer with
  | .refused _ => []
  | .accepted ack permit =>
      if !permit then
        []
      else if offered.waited then
        match ack with
        | .late result => [SlotActor.lateOutcome result]
        | _ => []
      else
        SlotActor.ackOutcomes false ack

def isDurable : JournalAckOutcome → Bool
  | .durable => true
  | _ => false

def pendingAcks (offered : Offered) : List PendingAck :=
  match offered.async with
  | [] => []
  | outcome :: rest => [{ seq := offered.seq, outcomes := outcome :: rest }]

/-- Everything the actor comes to know of the event, in order. -/
def outcomes (offered : Offered) : List Bool :=
  offered.sync.toList ++ offered.async.map isDurable

variable {offered : Offered}

theorem outcomes_ne_nil (offered : Offered) : offered.outcomes ≠ [] := by
  obtain ⟨seq, answer, waited⟩ := offered
  cases answer with
  | refused error => simp [outcomes, sync, async]
  | accepted ack permit =>
      cases ack <;> cases permit <;> cases waited <;>
        simp [outcomes, sync, async, SlotActor.ackOutcomes]

theorem async_ne_nil_of_sync (hsync : offered.sync = none) : offered.async ≠ [] := by
  intro hasync
  exact offered.outcomes_ne_nil (by simp [outcomes, hsync, hasync])

/-- The last word, as the actor comes to know it. -/
theorem getLast?_outcomes : offered.outcomes.getLast? = some (offered.heard && offered.wrote) := by
  obtain ⟨seq, answer, waited⟩ := offered
  cases answer with
  | refused error => rfl
  | accepted ack permit =>
      cases ack with
      | durable => cases permit <;> cases waited <;> rfl
      | failed error => cases permit <;> cases waited <;> rfl
      | late result =>
          cases result <;> cases permit <;> cases waited <;> rfl

theorem wrote_of_sync (hsync : offered.sync = some true) :
    offered.wrote = true ∧ offered.waited = true := by
  obtain ⟨seq, answer, waited⟩ := offered
  cases answer with
  | refused error => cases hsync
  | accepted ack permit =>
      cases waited with
      | false => cases permit <;> cases hsync
      | true => cases ack <;> first | exact ⟨rfl, rfl⟩ | cases hsync

theorem wrote_of_async (hasync : JournalAckOutcome.durable ∈ offered.async) :
    offered.wrote = true := by
  obtain ⟨seq, answer, waited⟩ := offered
  cases answer with
  | refused error => simp [async] at hasync
  | accepted ack permit =>
      cases ack with
      | durable => rfl
      | failed error =>
          cases permit <;> cases waited <;> simp [async, SlotActor.ackOutcomes] at hasync
      | late result =>
          cases result with
          | ok u => rfl
          | error error =>
              cases permit <;> cases waited <;>
                simp [async, SlotActor.ackOutcomes, SlotActor.lateOutcome] at hasync

end Offered

namespace SlotActor

/-! ## What is followed -/

def isDegradedNote : Effect → Bool
  | .event event => event.kind = .loggingDegraded
  | _ => false

/-- How often the log was announced to be degraded. -/
def degradedNotes (s : SlotActor) : ℕ := s.trace.countP isDegradedNote

/-- The part of an actor on which the health of the log depends. -/
structure LogBook where
  seq : ℕ
  ring : EventRing
  logging : LoggingState
  journalHealthSeq : ℕ
  pendingAcks : List PendingAck
  degradedNotes : ℕ

def logBook (s : SlotActor) : LogBook where
  seq := s.timeline.seq
  ring := s.timeline.ring
  logging := s.timeline.logging
  journalHealthSeq := s.timeline.journalHealthSeq
  pendingAcks := s.timeline.pendingAcks
  degradedNotes := s.degradedNotes

/-- The actor waits for the journal while nothing of it is in real time. -/
def waitsForJournal (s : SlotActor) : Bool :=
  s.timeline.logging = .healthy &&
    (s.trigger.activeTrigger.isNone && s.macros.activeMacro.isNone && !s.trigger.arming)

/-- How the next event is offered. -/
def offering (s : SlotActor) : Offered where
  seq := s.nextSeq
  answer := s.ask.answer.journal
  waited := s.waitsForJournal

/-- One more event is emitted, an acknowledgement arrives, or something else happens. -/
inductive LogStep : SlotActor × List Offered → SlotActor × List Offered → Prop
  | emit {s : SlotActor} {offered : List Offered} (kind : EventKind) (direction : Direction)
      (data : Bytes) (actor : Option Actor) (operationId runId : Option Uuid)
      (metadata : Metadata) (hkind : kind ≠ .loggingDegraded) :
      LogStep (s, offered)
        (s.emitInner kind direction data actor operationId runId metadata,
          offered ++ [s.offering])
  | acknowledge {s : SlotActor} {offered : List Offered} (index : ℕ) :
      LogStep (s, offered) (s.takeJournalAck index, offered)
  | other {s t : SlotActor} {offered : List Offered} (hsame : t.logBook = s.logBook) :
      LogStep (s, offered) (t, offered)

abbrev LogRun : SlotActor × List Offered → SlotActor × List Offered → Prop :=
  Relation.ReflTransGen LogStep

/-! ## One event -/

/-- The log after the journal was asked. -/
def LogBook.journaled (book : LogBook) (offered : Offered) : LogBook :=
  { book with
    logging :=
      match offered.sync with
      | some false => .degraded
      | _ => book.logging
    journalHealthSeq :=
      match offered.sync with
      | some _ => offered.seq
      | none => book.journalHealthSeq
    pendingAcks := book.pendingAcks ++ offered.pendingAcks }

/-- The log after an event entered the ring. -/
def LogBook.delivered (book : LogBook) (event : TimelineEvent) (size : ℕ) : LogBook :=
  { book with
    seq := event.seq
    ring := book.ring.push event size
    degradedNotes :=
      book.degradedNotes + if event.kind = .loggingDegraded then 1 else 0 }

section Journal

variable {s : SlotActor} {eventSeq : ℕ}

theorem logBook_markLoggingDegraded (error : String)
    (hhealth : s.timeline.journalHealthSeq ≤ s.timeline.seq) :
    (s.markLoggingDegraded error).1.logBook =
        { s.logBook with
          logging := .degraded
          journalHealthSeq := s.timeline.seq } ∧
      (s.markLoggingDegraded error).2 = decide (s.timeline.logging = .healthy) := by
  have hnew : ¬s.timeline.seq < s.timeline.journalHealthSeq := by
    omega
  simp only [markLoggingDegraded, markLoggingDegradedAt, hnew, if_false]
  refine ⟨rfl, ?_⟩
  cases s.timeline.logging <;> rfl

theorem logBook_trackJournalAck (seq : ℕ) (ack : JournalAck) (alreadyTimedOut : Bool) :
    (s.trackJournalAck seq ack true alreadyTimedOut).1.logBook =
      { s.logBook with
        pendingAcks := s.timeline.pendingAcks ++
          [{ seq := seq, outcomes := ackOutcomes alreadyTimedOut ack }] } := rfl

/-- What the answer of the journal does to the log. -/
theorem journalEvent_spec (s : SlotActor) (eventSeq : ℕ) (hseq : s.timeline.seq = eventSeq)
    (hhealth : s.timeline.journalHealthSeq ≤ eventSeq) :
    let offered : Offered :=
      { seq := eventSeq, answer := s.answer.journal, waited := s.waitsForJournal }
    (s.journalEvent eventSeq).1.logBook = s.logBook.journaled offered ∧
      (s.journalEvent eventSeq).2.1 = decide (offered.sync = some true) ∧
      (s.journalEvent eventSeq).2.2.isSome =
        decide (offered.sync = some false ∧ s.timeline.logging = .healthy) := by
  intro offered
  have hmark : ∀ (t : SlotActor) (error : String), t.timeline = s.timeline →
      t.logBook = s.logBook →
      (degradation error (t.markLoggingDegraded error)).1.logBook =
          { s.logBook with logging := .degraded, journalHealthSeq := eventSeq } ∧
        (degradation error (t.markLoggingDegraded error)).2.isSome =
          decide (s.timeline.logging = .healthy) := by
    intro t error htimeline hbook
    have hmarked := logBook_markLoggingDegraded (s := t) error
      (by rw [htimeline, hseq]; exact hhealth)
    rw [hbook, htimeline, hseq] at hmarked
    refine ⟨hmarked.1, ?_⟩
    simp only [degradation, hmarked.2]
    cases s.timeline.logging <;> rfl
  unfold journalEvent
  cases hanswer : s.answer.journal with
  | refused error =>
      obtain ⟨hbook, hnote⟩ := hmark s error rfl rfl
      have hsync : offered.sync = some false := by
        simp only [offered, hanswer, Offered.sync]
      have hasync : offered.pendingAcks = [] := by
        simp only [offered, hanswer, Offered.pendingAcks, Offered.async]
      refine ⟨?_, ?_, ?_⟩
      · simp only [hbook, LogBook.journaled, hsync, hasync, List.append_nil, offered]
      · simp [hsync]
      · simp [hnote, hsync]
  | accepted ack permit =>
      have hwaits : (decide (s.timeline.logging = .healthy) &&
          (s.trigger.activeTrigger.isNone && s.macros.activeMacro.isNone &&
            !s.trigger.arming)) = s.waitsForJournal := rfl
      simp only [hwaits]
      cases hwaited : s.waitsForJournal with
      | true =>
          cases ack with
          | durable =>
              have hpending : offered.pendingAcks = [] := by
                cases permit <;>
                  simp only [offered, hanswer, hwaited, Offered.pendingAcks, Offered.async] <;> rfl
              have hsync : offered.sync = some true := by
                simp only [offered, hanswer, hwaited, Offered.sync, if_true]
              refine ⟨?_, ?_, ?_⟩
              · simp only [LogBook.journaled, hsync, hpending, List.append_nil, offered]
                rfl
              · simp [hsync]
              · simp [hsync]
          | failed error =>
              obtain ⟨hbook, hnote⟩ := hmark s error rfl rfl
              have hpending : offered.pendingAcks = [] := by
                cases permit <;>
                  simp only [offered, hanswer, hwaited, Offered.pendingAcks, Offered.async] <;> rfl
              have hsync : offered.sync = some false := by
                simp only [offered, hanswer, hwaited, Offered.sync, if_true]
              refine ⟨?_, ?_, ?_⟩
              · simp only [if_true, hbook, LogBook.journaled, hsync, hpending, List.append_nil,
                  offered]
              · simp [hsync]
              · simp [hnote, hsync]
          | late result =>
              obtain ⟨hbook, hnote⟩ := hmark s
                "journal acknowledgement timed out; continuing live delivery" rfl rfl
              have hsync : offered.sync = some false := by
                simp only [offered, hanswer, hwaited, Offered.sync, if_true]
              refine ⟨?_, ?_, ?_⟩
              · cases permit with
                | true =>
                    have hpending : offered.pendingAcks =
                        [{ seq := eventSeq, outcomes := [lateOutcome result] }] := by
                      simp only [offered, hanswer, hwaited, Offered.pendingAcks, Offered.async]
                      rfl
                    have hacks := congrArg LogBook.pendingAcks hbook
                    simp only [if_true]
                    rw [logBook_trackJournalAck, hbook]
                    simp only [LogBook.journaled, hsync, hpending, offered, ackOutcomes, if_true]
                    simp only [logBook] at hacks
                    rw [hacks]
                    rfl
                | false =>
                    have hpending : offered.pendingAcks = [] := by
                      simp only [offered, hanswer, hwaited, Offered.pendingAcks, Offered.async]
                      rfl
                    simp only [if_true, LogBook.journaled, hsync, hpending, List.append_nil,
                      offered]
                    exact hbook
              · simp [hsync]
              · simp [hnote, hsync]
      | false =>
          simp only [Bool.false_eq_true, if_false]
          cases permit with
          | true =>
              have hsync : offered.sync = none := by
                simp only [offered, hanswer, hwaited, Offered.sync]
                rfl
              have hpending : offered.pendingAcks =
                  [{ seq := eventSeq, outcomes := ackOutcomes false ack }] := by
                cases ack <;>
                  simp only [offered, hanswer, hwaited, Offered.pendingAcks, Offered.async] <;> rfl
              refine ⟨?_, ?_, ?_⟩
              · simp only [LogBook.journaled, hsync, hpending]
                rfl
              · simp [hsync, trackJournalAck]
              · simp [hsync, trackJournalAck]
          | false =>
              obtain ⟨hbook, hnote⟩ := hmark s
                "journal acknowledgement tracker is saturated; continuing live delivery" rfl rfl
              have hsync : offered.sync = some false := by
                simp only [offered, hanswer, hwaited, Offered.sync]
                rfl
              have hpending : offered.pendingAcks = [] := by
                simp only [offered, hanswer, hwaited, Offered.pendingAcks, Offered.async]
                rfl
              refine ⟨?_, ?_, ?_⟩
              · simp only [LogBook.journaled, hsync, hpending, List.append_nil, offered]
                exact hbook
              · simp [hsync, trackJournalAck]
              · simp only [hsync, true_and]
                exact hnote

theorem logBook_deliver (s : SlotActor) (event : TimelineEvent) :
    (s.deliver event).logBook =
      { s.logBook with
        ring := s.timeline.ring.push event s.answer.eventSize
        degradedNotes := s.degradedNotes +
          if event.kind = .loggingDegraded then 1 else 0 } := by
  have hnotes : (s.deliver event).degradedNotes = s.degradedNotes +
      if event.kind = .loggingDegraded then 1 else 0 := by
    have htrace : (s.deliver event).trace = s.trace ++ [.event event] := rfl
    simp only [degradedNotes, htrace, List.countP_append, List.countP_cons, List.countP_nil,
      isDegradedNote, decide_eq_true_eq, Nat.zero_add]
  simp only [logBook, hnotes]
  rfl

/-- A note of degraded logging enters the ring and is not offered to the journal. -/
structure IsDegradedNote (seq : ℕ) (note : TimelineEvent) : Prop where
  seq : note.seq = satAdd u64Max seq 1
  kind : note.kind = .loggingDegraded
  durable : note.durable = false

theorem logBook_publishNondurableLoggingEvent (s : SlotActor) (error : String) :
    ∃ note size, IsDegradedNote s.timeline.seq note ∧
      (s.publishNondurableLoggingEvent error).logBook = s.logBook.delivered note size := by
  let note : TimelineEvent := {
    port := s.config.port
    daemonEpoch := s.daemonEpoch
    seq := s.nextSeq
    generation := s.port.generation
    wallTimeNs := s.ask.answer.wall
    monotonicTimeNs := s.ask.monotonicTimeNs
    kind := .loggingDegraded
    direction := .none
    actor := some systemActor
    runId := s.authority.activeRun.map RunInfo.id
    operationId := none
    streamOffsetStart := none
    streamOffsetEnd := none
    data := []
    metadata := [("error", .str error)]
    durable := false }
  refine ⟨note, s.ask.answer.eventSize, ⟨rfl, rfl, rfl⟩, ?_⟩
  simp only [publishNondurableLoggingEvent, logBook_deliver]
  rfl

/-- The log after an event and, if logging became degraded, the note behind it. -/
theorem logBook_emitInner (s : SlotActor) (kind : EventKind) (direction : Direction)
    (data : Bytes) (actor : Option Actor) (operationId runId : Option Uuid)
    (metadata : Metadata) (hkind : kind ≠ .loggingDegraded)
    (hhealth : s.timeline.journalHealthSeq ≤ s.nextSeq) :
    ∃ event size, event.seq = s.nextSeq ∧
      event.durable = decide (s.offering.sync = some true) ∧
      event.kind ≠ .loggingDegraded ∧
      if s.offering.sync = some false ∧ s.timeline.logging = .healthy then
        ∃ note noteSize, IsDegradedNote s.nextSeq note ∧
          (s.emitInner kind direction data actor operationId runId metadata).logBook =
            ((s.logBook.journaled s.offering).delivered event size).delivered note noteSize
      else
        (s.emitInner kind direction data actor operationId runId metadata).logBook =
          (s.logBook.journaled s.offering).delivered event size := by
  unfold emitInner
  extract_lets s₁ eventSeq offsets moved s₂ journaled event delivered
  have hlogging : s₂.timeline.logging = s.timeline.logging := by
    simp only [s₂, offsets, streamOffsets]
    cases direction <;> rfl
  have hbefore : s₂.timeline.journalHealthSeq = s.timeline.journalHealthSeq := by
    simp only [s₂, offsets, streamOffsets]
    cases direction <;> rfl
  have hring : s₂.logBook = { s.logBook with seq := s.nextSeq } := by
    simp only [s₂, offsets, streamOffsets]
    cases direction <;> rfl
  have hoffering : Offered.mk eventSeq s₂.answer.journal s₂.waitsForJournal = s.offering := by
    simp only [waitsForJournal, hlogging, offering]
    rfl
  have hspec := journalEvent_spec s₂ eventSeq rfl
    (by rw [hbefore]; exact hhealth)
  simp only [hoffering, hlogging] at hspec
  obtain ⟨hbook, hdurable, hnote⟩ := hspec
  have hdelivered : delivered.logBook =
      (s.logBook.journaled s.offering).delivered event journaled.1.answer.eventSize := by
    have hdeliver : delivered.logBook =
        { journaled.1.logBook with
          ring := journaled.1.logBook.ring.push event journaled.1.answer.eventSize
          degradedNotes := journaled.1.logBook.degradedNotes +
            if event.kind = .loggingDegraded then 1 else 0 } :=
      logBook_deliver journaled.1 event
    rw [hdeliver]
    simp only [journaled, hbook, hring]
    rfl
  refine ⟨event, journaled.1.answer.eventSize, rfl, hdurable, hkind, ?_⟩
  cases hdegraded : journaled.2.2 with
  | none =>
      simp only [journaled] at hdegraded
      rw [hdegraded] at hnote
      have hquiet := of_decide_eq_false hnote.symm
      rw [if_neg hquiet]
      exact hdelivered
  | some error =>
      simp only [journaled] at hdegraded
      rw [hdegraded] at hnote
      have hloud := of_decide_eq_true hnote.symm
      rw [if_pos hloud]
      obtain ⟨note, size, hisNote, hpublished⟩ :=
        logBook_publishNondurableLoggingEvent delivered error
      have hseq : delivered.timeline.seq = s.nextSeq :=
        congrArg LogBook.seq hdelivered
      rw [hseq] at hisNote
      rw [hdelivered] at hpublished
      exact ⟨note, size, hisNote, hpublished⟩

end Journal

/-! ## One acknowledgement -/

/-- The log after a forwarding task delivered a result. -/
def LogBook.heard (book : LogBook) (seq : ℕ) (outcome : JournalAckOutcome) : LogBook :=
  { book with
    ring := if Offered.isDurable outcome then book.ring.markDurable seq else book.ring
    logging :=
      if book.journalHealthSeq ≤ seq then
        if Offered.isDurable outcome then .healthy else .degraded
      else
        book.logging
    journalHealthSeq := max book.journalHealthSeq seq }

/-- The acknowledgements after one delivered the first of its outcomes. -/
def remainingAcks (acks : List PendingAck) (index : ℕ) (pending : PendingAck)
    (rest : List JournalAckOutcome) : List PendingAck :=
  match rest with
  | [] => acks.eraseIdx index
  | _ => acks.set index { pending with outcomes := rest }

theorem logBook_degrade (s : SlotActor) (error : String) (seq : ℕ)
    (outcome : JournalAckOutcome) (hbad : Offered.isDurable outcome = false) :
    let marked := s.markLoggingDegradedAt error seq
    let after := if marked.2 then marked.1.publishNondurableLoggingEvent error else marked.1
    if s.timeline.journalHealthSeq ≤ seq ∧ s.timeline.logging = .healthy then
      ∃ note size, IsDegradedNote s.timeline.seq note ∧
        after.logBook = (s.logBook.heard seq outcome).delivered note size
    else
      after.logBook = s.logBook.heard seq outcome := by
  intro marked after
  by_cases hold : seq < s.timeline.journalHealthSeq
  · have hnot : ¬(s.timeline.journalHealthSeq ≤ seq ∧ s.timeline.logging = .healthy) := by
      omega
    have hnot' : ¬s.timeline.journalHealthSeq ≤ seq := by
      omega
    have hsame : marked = (s, false) := by
      simp only [marked, markLoggingDegradedAt, hold, if_true]
    rw [if_neg hnot]
    simp only [after, hsame, Bool.false_eq_true, if_false, LogBook.heard, hbad, logBook, hnot']
    congr 1
    omega
  · have hnew : s.timeline.journalHealthSeq ≤ seq := by
      omega
    have hmax : max s.timeline.journalHealthSeq seq = seq := max_eq_right hnew
    have hbook : marked.1.logBook = s.logBook.heard seq outcome := by
      simp only [marked, markLoggingDegradedAt, hold, if_false, LogBook.heard, hbad, logBook,
        hnew, if_true, hmax, Bool.false_eq_true]
      rfl
    have hnote : marked.2 = decide (s.timeline.logging = .healthy) := by
      simp only [marked, markLoggingDegradedAt, hold, if_false]
      cases s.timeline.logging <;> rfl
    by_cases hhealthy : s.timeline.logging = .healthy
    · rw [if_pos ⟨hnew, hhealthy⟩]
      have hmarked : marked.2 = true := by
        rw [hnote, hhealthy]
        rfl
      simp only [after, hmarked, if_true]
      obtain ⟨note, size, hisNote, hpublished⟩ :=
        logBook_publishNondurableLoggingEvent marked.1 error
      have hseq : marked.1.timeline.seq = s.timeline.seq := congrArg LogBook.seq hbook
      rw [hseq] at hisNote
      rw [hbook] at hpublished
      exact ⟨note, size, hisNote, hpublished⟩
    · rw [if_neg (fun h => hhealthy h.2)]
      have hmarked : marked.2 = false := by
        rw [hnote]
        exact decide_eq_false hhealthy
      simp only [after, hmarked, Bool.false_eq_true, if_false]
      exact hbook

theorem logBook_handleJournalAckResult (s : SlotActor) (seq : ℕ) (outcome : JournalAckOutcome) :
    if Offered.isDurable outcome = false ∧ s.timeline.journalHealthSeq ≤ seq ∧
        s.timeline.logging = .healthy then
      ∃ note size, IsDegradedNote s.timeline.seq note ∧
        (s.handleJournalAckResult seq outcome).logBook =
          (s.logBook.heard seq outcome).delivered note size
    else
      (s.handleJournalAckResult seq outcome).logBook = s.logBook.heard seq outcome := by
  cases outcome with
  | durable =>
      have hnot : ¬(Offered.isDurable .durable = false ∧ s.timeline.journalHealthSeq ≤ seq ∧
          s.timeline.logging = .healthy) := by
        intro h
        cases h.1
      rw [if_neg hnot]
      simp only [handleJournalAckResult]
      by_cases hnew : s.timeline.journalHealthSeq ≤ seq
      · have hmax : max s.timeline.journalHealthSeq seq = seq := max_eq_right hnew
        simp only [hnew, if_true, LogBook.heard, logBook, hmax]
        split <;> rfl
      · have hmax : max s.timeline.journalHealthSeq seq = s.timeline.journalHealthSeq := by
          omega
        simp only [hnew, if_false, LogBook.heard, logBook, hmax]
        rfl
  | failed error =>
      have hdegrade := logBook_degrade s error seq (.failed error) rfl
      simpa only [handleJournalAckResult, Offered.isDurable, true_and] using hdegrade
  | timedOut =>
      have hdegrade := logBook_degrade s ("journal acknowledgement for event " ++ toString seq ++
        " timed out; continuing live delivery") seq .timedOut rfl
      simpa only [handleJournalAckResult, Offered.isDurable, true_and] using hdegrade

/-- A delivery takes the first outcome off an acknowledgement and handles it. -/
theorem takeJournalAck_cases (s : SlotActor) (index : ℕ) :
    (s.takeJournalAck index).logBook = s.logBook ∨
      ∃ (pending : PendingAck) (outcome : JournalAckOutcome) (rest : List JournalAckOutcome)
          (t : SlotActor), s.timeline.pendingAcks[index]? = some pending ∧
        pending.outcomes = outcome :: rest ∧
        t.logBook = { s.logBook with
          pendingAcks := remainingAcks s.timeline.pendingAcks index pending rest } ∧
        s.takeJournalAck index = t.handleJournalAckResult pending.seq outcome := by
  unfold takeJournalAck
  simp only
  cases hpending : s.ask.timeline.pendingAcks[index]? with
  | none => exact Or.inl rfl
  | some pending =>
      cases houtcomes : pending.outcomes with
      | nil =>
          simp only [houtcomes]
          exact Or.inl rfl
      | cons outcome rest =>
          simp only [houtcomes]
          right
          refine ⟨pending, outcome, rest, _, hpending, houtcomes, ?_, rfl⟩
          cases rest <;> rfl

end SlotActor
end SerialPlatform
