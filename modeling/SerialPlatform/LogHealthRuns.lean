import SerialPlatform.LogHealth
import SerialPlatform.SlotView

/-!
# The log follows the newest outcome

Of every offered event the actor has heard a part of its outcomes; the rest is
still pending.  Nothing was heard of the events behind the health number, and the
logging state is the last word heard of the event with that number.
-/

namespace SerialPlatform

namespace EventRing

theorem mem_push {ring : EventRing} {event e : TimelineEvent} {size : ℕ}
    (he : e ∈ (ring.push event size).timeline) : e ∈ ring.timeline ∨ e = event := by
  have hmem := (push_suffix ring event size).subset he
  simpa using hmem

theorem mem_markDurableFirst {seq : ℕ} {entries : List RingEntry} {entry : RingEntry}
    (hentry : entry ∈ markDurableFirst seq entries) :
    ∃ old ∈ entries, old.event.seq = entry.event.seq ∧
      (entry.event.durable = true → old.event.durable = true ∨ entry.event.seq = seq) := by
  induction entries with
  | nil => cases hentry
  | cons first rest ih =>
      simp only [markDurableFirst] at hentry
      split at hentry
      · rename_i hfirst
        rcases List.mem_cons.1 hentry with rfl | hrest
        · exact ⟨first, List.mem_cons_self, rfl, fun _ => Or.inr hfirst⟩
        · exact ⟨entry, List.mem_cons_of_mem _ hrest, rfl, Or.inl⟩
      · rcases List.mem_cons.1 hentry with rfl | hrest
        · exact ⟨entry, List.mem_cons_self, rfl, Or.inl⟩
        · obtain ⟨old, hold, hsame⟩ := ih hrest
          exact ⟨old, List.mem_cons_of_mem _ hold, hsame⟩

theorem mem_markDurable {ring : EventRing} {seq : ℕ} {event : TimelineEvent}
    (hevent : event ∈ (ring.markDurable seq).timeline) :
    ∃ old ∈ ring.timeline, old.seq = event.seq ∧
      (event.durable = true → old.durable = true ∨ event.seq = seq) := by
  simp only [timeline, markDurable, List.mem_map, List.mem_reverse] at hevent
  obtain ⟨entry, hentry, rfl⟩ := hevent
  obtain ⟨old, hold, hsame⟩ := mem_markDurableFirst hentry
  exact ⟨old.event, List.mem_map_of_mem (List.mem_reverse.1 hold), hsame⟩

end EventRing

namespace SlotActor

/-- What was heard of an event, of all there is to hear. -/
structure Heard (acks : List PendingAck) (logging : LoggingState) (offered : Offered)
    (reported rest : List Bool) : Prop where
  something : reported ≠ []
  outcomes : reported ++ rest = offered.outcomes
  pending : ∀ ack ∈ acks, ack.seq = offered.seq → ack.outcomes.map Offered.isDurable = rest
  awaited : rest ≠ [] → ∃ ack ∈ acks, ack.seq = offered.seq
  logging : logging = .healthy ↔ reported.getLast? = some true

/-- The log follows what was offered to the journal. -/
structure LogBook.Follows (book : LogBook) (offered : List Offered) : Prop where
  increasing : (offered.map Offered.seq).Pairwise (· < ·)
  bounds : ∀ o ∈ offered, 1 ≤ o.seq ∧ o.seq ≤ book.seq
  health_le : book.journalHealthSeq ≤ book.seq
  distinct : (book.pendingAcks.map PendingAck.seq).Nodup
  pending : ∀ ack ∈ book.pendingAcks, ∃ o ∈ offered, o.seq = ack.seq ∧
    ack.outcomes <:+ o.async
  newer : ∀ o ∈ offered, book.journalHealthSeq < o.seq →
    o.sync = none ∧ { seq := o.seq, outcomes := o.async } ∈ book.pendingAcks
  newest : (book.journalHealthSeq = 0 ∧ book.logging = .healthy) ∨
    ∃ o ∈ offered, o.seq = book.journalHealthSeq ∧
      ∃ reported rest, Heard book.pendingAcks book.logging o reported rest
  durable : ∀ event ∈ book.ring.timeline, event.durable = true →
    ∃ o ∈ offered, o.seq = event.seq ∧ o.wrote = true

variable {book : LogBook} {offered : List Offered}

/-! ## Events -/

theorem mem_pendingAcks {o : Offered} {ack : PendingAck} (hack : ack ∈ o.pendingAcks) :
    ack = { seq := o.seq, outcomes := o.async } := by
  unfold Offered.pendingAcks at hack
  cases hasync : o.async with
  | nil =>
      rw [hasync] at hack
      cases hack
  | cons outcome rest =>
      rw [hasync] at hack
      exact List.mem_singleton.1 hack

theorem mem_pendingAcks_self {o : Offered} (hasync : o.async ≠ []) :
    { seq := o.seq, outcomes := o.async } ∈ o.pendingAcks := by
  unfold Offered.pendingAcks
  cases hcases : o.async with
  | nil => exact absurd hcases hasync
  | cons outcome rest => exact List.mem_singleton.2 rfl

/-- A note only takes a number. -/
theorem LogBook.Follows.note (h : book.Follows offered) {note : TimelineEvent}
    (hseq : note.seq = book.seq + 1) (hdurable : note.durable = false) (size : ℕ) :
    (book.delivered note size).Follows offered where
  increasing := h.increasing
  bounds := by
    intro o ho
    have hbounds := h.bounds o ho
    simp only [LogBook.delivered, hseq]
    omega
  health_le := by
    have hle := h.health_le
    simp only [LogBook.delivered, hseq]
    omega
  distinct := h.distinct
  pending := h.pending
  newer := h.newer
  newest := h.newest
  durable := by
    intro event hevent hmarked
    rcases EventRing.mem_push hevent with hold | rfl
    · exact h.durable event hold hmarked
    · rw [hdurable] at hmarked
      cases hmarked

theorem LogBook.Follows.emit (h : book.Follows offered) {o : Offered}
    (hnext : o.seq = book.seq + 1)
    (hwaited : o.sync = some true → book.logging = .healthy) {event : TimelineEvent}
    (hseq : event.seq = o.seq) (hdurable : event.durable = decide (o.sync = some true))
    (size : ℕ) : ((book.journaled o).delivered event size).Follows (offered ++ [o]) := by
  have hnewack : ∀ ack ∈ o.pendingAcks, ack.seq = book.seq + 1 := by
    intro ack hack
    rw [mem_pendingAcks hack, ← hnext]
  have holdack : ∀ ack ∈ book.pendingAcks, ack.seq ≤ book.seq := by
    intro ack hack
    obtain ⟨o, ho, hsame, -⟩ := h.pending ack hack
    have hbounds := h.bounds o ho
    omega
  constructor
  · simp only [List.map_append, List.map_singleton]
    apply List.pairwise_append.2
    refine ⟨h.increasing, List.pairwise_singleton _ _, ?_⟩
    intro old hold new hnew
    obtain ⟨o', ho', rfl⟩ := List.mem_map.1 hold
    have hbounds := h.bounds o' ho'
    rw [List.mem_singleton.1 hnew]
    omega
  · intro o' ho'
    simp only [LogBook.delivered, hseq]
    rcases List.mem_append.1 ho' with hold | hnew
    · have hbounds := h.bounds o' hold
      omega
    · rw [List.mem_singleton.1 hnew]
      omega
  · have hle := h.health_le
    simp only [LogBook.delivered, LogBook.journaled, hseq]
    split <;> omega
  · simp only [LogBook.delivered, LogBook.journaled, List.map_append]
    apply List.nodup_append.2
    refine ⟨h.distinct, ?_, ?_⟩
    · unfold Offered.pendingAcks
      split <;> simp
    · intro old hold new hnew
      obtain ⟨ack, hack, rfl⟩ := List.mem_map.1 hold
      obtain ⟨ack', hack', rfl⟩ := List.mem_map.1 hnew
      have hle := holdack ack hack
      have heq := hnewack ack' hack'
      omega
  · intro ack hack
    rcases List.mem_append.1 hack with hold | hnew
    · obtain ⟨o', ho', hsame⟩ := h.pending ack hold
      exact ⟨o', List.mem_append_left _ ho', hsame⟩
    · rw [mem_pendingAcks hnew]
      exact ⟨o, by simp, rfl, List.suffix_rfl⟩
  · intro o' ho' hbehind
    simp only [LogBook.delivered, LogBook.journaled] at hbehind ⊢
    rcases List.mem_append.1 ho' with hold | hnew
    · have hbounds := h.bounds o' hold
      cases hsync : o.sync with
      | some good =>
          simp only [hsync] at hbehind
          omega
      | none =>
          simp only [hsync] at hbehind
          obtain ⟨hnone, hmem⟩ := h.newer o' hold hbehind
          exact ⟨hnone, List.mem_append_left _ hmem⟩
    · rw [List.mem_singleton.1 hnew] at hbehind ⊢
      cases hsync : o.sync with
      | some good =>
          simp only [hsync] at hbehind
          omega
      | none =>
          have hasync := Offered.async_ne_nil_of_sync hsync
          exact ⟨rfl, List.mem_append_right _ (mem_pendingAcks_self hasync)⟩
  · simp only [LogBook.delivered, LogBook.journaled]
    cases hsync : o.sync with
    | none =>
        -- nothing is heard of the new event
        rcases h.newest with hfresh | hheard
        · exact Or.inl hfresh
        · right
          obtain ⟨o', ho', hhealth, reported, rest, hheard⟩ := hheard
          have hbounds := h.bounds o' ho'
          refine ⟨o', List.mem_append_left _ ho', hhealth, reported, rest, hheard.something,
            hheard.outcomes, ?_, ?_, hheard.logging⟩
          · intro ack hack hsame
            rcases List.mem_append.1 hack with hold | hnew
            · exact hheard.pending ack hold hsame
            · have hnumber := hnewack ack hnew
              omega
          · intro hrest
            obtain ⟨ack, hack, hsame⟩ := hheard.awaited hrest
            exact ⟨ack, List.mem_append_left _ hack, hsame⟩
    | some good =>
        right
        refine ⟨o, by simp, rfl, [good], o.async.map Offered.isDurable, by simp, ?_, ?_, ?_, ?_⟩
        · simp [Offered.outcomes, hsync]
        · intro ack hack hsame
          rcases List.mem_append.1 hack with hold | hnew
          · have hle := holdack ack hold
            omega
          · rw [mem_pendingAcks hnew]
        · intro hrest
          have hasync : o.async ≠ [] := by
            intro hempty
            simp [hempty] at hrest
          exact ⟨_, List.mem_append_right _ (mem_pendingAcks_self hasync), rfl⟩
        · cases good with
          | true => simp [hwaited hsync]
          | false => simp
  · intro e he hmarked
    rcases EventRing.mem_push he with hold | rfl
    · obtain ⟨o', ho', hsame⟩ := h.durable e hold hmarked
      exact ⟨o', List.mem_append_left _ ho', hsame⟩
    · rw [hdurable, decide_eq_true_eq] at hmarked
      exact ⟨o, by simp, hseq.symm, (Offered.wrote_of_sync hmarked).1⟩

/-! ## Acknowledgements -/

theorem remainingAcks_eq {acks : List PendingAck} {index : ℕ} {pending : PendingAck}
    (hpending : acks[index]? = some pending) (rest : List JournalAckOutcome) :
    ∃ before after, acks = before ++ pending :: after ∧
      remainingAcks acks index pending rest =
        before ++ (if rest = [] then [] else [{ pending with outcomes := rest }]) ++ after := by
  obtain ⟨hindex, hget⟩ := List.getElem?_eq_some_iff.1 hpending
  have hsplit : acks = acks.take index ++ pending :: acks.drop (index + 1) := by
    rw [← hget, ← List.drop_eq_getElem_cons hindex, List.take_append_drop]
  refine ⟨acks.take index, acks.drop (index + 1), hsplit, ?_⟩
  cases rest with
  | nil => simp [remainingAcks, List.eraseIdx_eq_take_drop_succ]
  | cons outcome rest => simp [remainingAcks, List.set_eq_take_append_cons_drop, hindex]

/-- The acknowledgements which are left, as a set. -/
theorem mem_remainingAcks {acks : List PendingAck} (hdistinct : (acks.map PendingAck.seq).Nodup)
    {index : ℕ} {pending : PendingAck} (hpending : acks[index]? = some pending)
    {rest : List JournalAckOutcome} {ack : PendingAck} :
    ack ∈ remainingAcks acks index pending rest ↔
      (ack ∈ acks ∧ ack.seq ≠ pending.seq) ∨
        (rest ≠ [] ∧ ack = { pending with outcomes := rest }) := by
  obtain ⟨before, after, hacks, hremaining⟩ := remainingAcks_eq hpending rest
  rw [hacks] at hdistinct
  simp only [List.map_append, List.map_cons, List.nodup_append, List.nodup_cons] at hdistinct
  obtain ⟨-, ⟨hafter, -⟩, hapart⟩ := hdistinct
  have hbefore : ∀ other ∈ before, other.seq ≠ pending.seq := fun other hother =>
    hapart _ (List.mem_map_of_mem hother) _ List.mem_cons_self
  have hbehind : ∀ other ∈ after, other.seq ≠ pending.seq := by
    intro other hother hsame
    exact hafter (hsame ▸ List.mem_map_of_mem hother)
  rw [hremaining, hacks]
  simp only [List.mem_append, List.mem_cons]
  constructor
  · intro hack
    rcases hack with (hfirst | hmiddle) | hlast
    · exact Or.inl ⟨Or.inl hfirst, hbefore ack hfirst⟩
    · by_cases hrest : rest = []
      · simp [hrest] at hmiddle
      · right
        simpa [hrest] using hmiddle
    · exact Or.inl ⟨Or.inr (Or.inr hlast), hbehind ack hlast⟩
  · intro hack
    rcases hack with ⟨hfirst | rfl | hlast, hother⟩ | ⟨hrest, rfl⟩
    · exact Or.inl (Or.inl hfirst)
    · exact absurd rfl hother
    · exact Or.inr hlast
    · simp [hrest]

theorem nodup_remainingAcks {acks : List PendingAck}
    (hdistinct : (acks.map PendingAck.seq).Nodup) {index : ℕ} {pending : PendingAck}
    (hpending : acks[index]? = some pending) (rest : List JournalAckOutcome) :
    ((remainingAcks acks index pending rest).map PendingAck.seq).Nodup := by
  obtain ⟨before, after, hacks, hremaining⟩ := remainingAcks_eq hpending rest
  rw [hacks] at hdistinct
  refine List.Nodup.sublist ?_ hdistinct
  rw [hremaining, List.append_assoc]
  simp only [List.map_append]
  apply List.Sublist.append_left
  split
  · exact List.sublist_cons_self _ _
  · exact List.Sublist.refl _

theorem eq_of_seq_eq {acks : List PendingAck} (hdistinct : (acks.map PendingAck.seq).Nodup)
    {first second : PendingAck} (hfirst : first ∈ acks) (hsecond : second ∈ acks)
    (hsame : first.seq = second.seq) : first = second :=
  List.inj_on_of_nodup_map hdistinct hfirst hsecond hsame

theorem eq_of_offered_seq {offered : List Offered}
    (hincreasing : (offered.map Offered.seq).Pairwise (· < ·)) {first second : Offered}
    (hfirst : first ∈ offered) (hsecond : second ∈ offered) (hsame : first.seq = second.seq) :
    first = second := by
  have hdistinct : (offered.map Offered.seq).Nodup :=
    hincreasing.imp fun hlt => Nat.ne_of_lt hlt
  exact List.inj_on_of_nodup_map hdistinct hfirst hsecond hsame

theorem LogBook.Follows.acknowledge (h : book.Follows offered) {index : ℕ} {pending : PendingAck}
    (hpending : book.pendingAcks[index]? = some pending) {outcome : JournalAckOutcome}
    {rest : List JournalAckOutcome} (houtcomes : pending.outcomes = outcome :: rest) :
    (LogBook.heard
      { book with pendingAcks := remainingAcks book.pendingAcks index pending rest }
      pending.seq outcome).Follows offered := by
  have hmem : pending ∈ book.pendingAcks := List.mem_of_getElem? hpending
  have hremaining : ∀ {ack : PendingAck},
      ack ∈ remainingAcks book.pendingAcks index pending rest ↔
        (ack ∈ book.pendingAcks ∧ ack.seq ≠ pending.seq) ∨
          (rest ≠ [] ∧ ack = { pending with outcomes := rest }) :=
    mem_remainingAcks h.distinct hpending
  obtain ⟨o, ho, hsame, hsuffix⟩ := h.pending pending hmem
  constructor
  · exact h.increasing
  · exact h.bounds
  · have hbounds := h.bounds o ho
    have hle := h.health_le
    simp only [LogBook.heard]
    omega
  · exact nodup_remainingAcks h.distinct hpending rest
  · intro ack hack
    rcases hremaining.1 hack with ⟨hold, -⟩ | ⟨-, rfl⟩
    · exact h.pending ack hold
    · refine ⟨o, ho, hsame, ?_⟩
      have htail : rest <:+ pending.outcomes := by
        rw [houtcomes]
        exact List.suffix_cons outcome rest
      exact htail.trans hsuffix
  · intro o' ho' hbehind
    simp only [LogBook.heard] at hbehind ⊢
    obtain ⟨hnone, hack⟩ := h.newer o' ho' (by omega)
    refine ⟨hnone, hremaining.2 (Or.inl ⟨hack, ?_⟩)⟩
    simp only
    omega
  · simp only [LogBook.heard]
    by_cases hold : pending.seq < book.journalHealthSeq
    · -- an older acknowledgement is not listened to
      have hnot : ¬book.journalHealthSeq ≤ pending.seq := by
        omega
      have hmax : max book.journalHealthSeq pending.seq = book.journalHealthSeq := by
        omega
      simp only [hnot, if_false, hmax]
      rcases h.newest with hfresh | hheard
      · omega
      · right
        obtain ⟨o', ho', hhealth, reported, left, hheard⟩ := hheard
        refine ⟨o', ho', hhealth, reported, left, hheard.something, hheard.outcomes, ?_, ?_,
          hheard.logging⟩
        · intro ack hack hnumber
          rcases hremaining.1 hack with ⟨hack, -⟩ | ⟨-, rfl⟩
          · exact hheard.pending ack hack hnumber
          · simp only at hnumber
            omega
        · intro hleft
          obtain ⟨ack, hack, hnumber⟩ := hheard.awaited hleft
          exact ⟨ack, hremaining.2 (Or.inl ⟨hack, by omega⟩), hnumber⟩
    · right
      have hnew : book.journalHealthSeq ≤ pending.seq := by
        omega
      have hmax : max book.journalHealthSeq pending.seq = pending.seq := max_eq_right hnew
      simp only [hnew, if_true, hmax]
      have hbefore : ∃ reported, reported ++ pending.outcomes.map Offered.isDurable =
          o.outcomes := by
        rcases Nat.lt_or_eq_of_le hnew with hlater | hcurrent
        · obtain ⟨hnone, hack⟩ := h.newer o ho (by omega)
          have hfull : pending = { seq := o.seq, outcomes := o.async } :=
            eq_of_seq_eq h.distinct hmem hack hsame.symm
          refine ⟨[], ?_⟩
          simp [hfull, Offered.outcomes, hnone]
        · rcases h.newest with hfresh | hheard
          · have hbounds := h.bounds o ho
            omega
          · obtain ⟨o', ho', hhealth, reported, left, hheard⟩ := hheard
            have hone : o' = o := eq_of_offered_seq h.increasing ho' ho (by omega)
            rw [hone] at hheard
            refine ⟨reported, ?_⟩
            rw [hheard.pending pending hmem hsame.symm]
            exact hheard.outcomes
      obtain ⟨reported, hreported⟩ := hbefore
      rw [houtcomes] at hreported
      refine ⟨o, ho, hsame, reported ++ [Offered.isDurable outcome],
        rest.map Offered.isDurable, by simp, by simpa using hreported, ?_, ?_, ?_⟩
      · intro ack hack hnumber
        rcases hremaining.1 hack with ⟨-, hother⟩ | ⟨-, rfl⟩
        · omega
        · rfl
      · intro hleft
        have hrest : rest ≠ [] := by
          intro hempty
          simp [hempty] at hleft
        exact ⟨_, hremaining.2 (Or.inr ⟨hrest, rfl⟩), hsame.symm⟩
      · cases hgood : Offered.isDurable outcome <;> simp
  · intro event hevent hmarked
    simp only [LogBook.heard] at hevent
    split at hevent
    · rename_i hdurable
      obtain ⟨old, hold, hnumber, hwhy⟩ := EventRing.mem_markDurable hevent
      rcases hwhy hmarked with holder | hnew
      · obtain ⟨o', ho', hseq, hwrote⟩ := h.durable old hold holder
        exact ⟨o', ho', hseq.trans hnumber, hwrote⟩
      · refine ⟨o, ho, hsame.trans hnew.symm, Offered.wrote_of_async ?_⟩
        apply hsuffix.subset
        rw [houtcomes]
        cases outcome with
        | durable => exact List.mem_cons_self
        | failed error => cases hdurable
        | timedOut => cases hdurable
    · exact h.durable event hevent hmarked

/-! ## Steps -/

theorem seq_emitInner (s : SlotActor) (kind : EventKind) (direction : Direction) (data : Bytes)
    (actor : Option Actor) (operationId runId : Option Uuid) (metadata : Metadata) :
    s.nextSeq ≤ (s.emitInner kind direction data actor operationId runId metadata).timeline.seq ∧
      (s.emitInner kind direction data actor operationId runId metadata).timeline.seq ≤
        u64Max := by
  obtain ⟨event, -, hnext, hnoted⟩ := s.view_emitInner [] kind direction data actor operationId
    runId metadata
  have hevent : event.seq = s.nextSeq := hnext.seq
  have hcap : s.nextSeq ≤ u64Max := satAdd_le_cap _ _ _
  have hseq : ∀ {v : View}, View.Noted ((s.view []).emit event) v →
      s.nextSeq ≤ v.seq ∧ v.seq ≤ u64Max := by
    intro v hnoted
    cases hnoted with
    | nil => exact ⟨hevent.ge, hevent.le.trans hcap⟩
    | note hnote hnext =>
        have hlater := hnext.seq
        simp only [View.emit, hevent] at hlater
        refine ⟨?_, ?_⟩
        · exact (le_satAdd 1 hcap).trans hlater.ge
        · exact hlater.le.trans (satAdd_le_cap _ _ _)
  exact hseq hnoted

theorem LogBook.Follows.degradedNote {book : LogBook} {offered : List Offered}
    (h : book.Follows offered) (hroom : book.seq < u64Max) {note : TimelineEvent}
    (hnote : IsDegradedNote book.seq note) (size : ℕ) :
    (book.delivered note size).Follows offered :=
  h.note (hnote.seq.trans (satAdd_eq_add hroom)) hnote.durable size

/-- What a delivery does to the log: nothing, or an outcome is heard and perhaps a
note is left. -/
theorem logBook_takeJournalAck (s : SlotActor) (index : ℕ) :
    (s.takeJournalAck index).logBook = s.logBook ∨
      ∃ (pending : PendingAck) (outcome : JournalAckOutcome) (rest : List JournalAckOutcome),
        s.timeline.pendingAcks[index]? = some pending ∧ pending.outcomes = outcome :: rest ∧
          let heard := LogBook.heard
            { s.logBook with
              pendingAcks := remainingAcks s.timeline.pendingAcks index pending rest }
            pending.seq outcome
          if Offered.isDurable outcome = false ∧ s.timeline.journalHealthSeq ≤ pending.seq ∧
              s.timeline.logging = .healthy then
            ∃ note size, IsDegradedNote s.timeline.seq note ∧
              (s.takeJournalAck index).logBook = heard.delivered note size
          else
            (s.takeJournalAck index).logBook = heard := by
  rcases s.takeJournalAck_cases index with hsame | htaken
  · exact Or.inl hsame
  · right
    obtain ⟨pending, outcome, rest, t, hpending, houtcomes, hbook, htaken⟩ := htaken
    refine ⟨pending, outcome, rest, hpending, houtcomes, ?_⟩
    have hhandled := t.logBook_handleJournalAckResult pending.seq outcome
    have hseq : t.timeline.seq = s.timeline.seq := congrArg LogBook.seq hbook
    have hhealth : t.timeline.journalHealthSeq = s.timeline.journalHealthSeq :=
      congrArg LogBook.journalHealthSeq hbook
    have hlogging : t.timeline.logging = s.timeline.logging := congrArg LogBook.logging hbook
    rw [htaken]
    rw [hbook, hseq, hhealth, hlogging] at hhandled
    exact hhandled

variable {s t : SlotActor} {offered offered' : List Offered}

theorem LogStep.seq_le (h : LogStep (s, offered) (t, offered')) (hcap : s.timeline.seq ≤ u64Max) :
    s.timeline.seq ≤ t.timeline.seq ∧ t.timeline.seq ≤ u64Max := by
  cases h with
  | emit kind direction data actor operationId runId metadata hkind =>
      obtain ⟨hnext, hle⟩ := s.seq_emitInner kind direction data actor operationId runId metadata
      exact ⟨(le_satAdd 1 hcap).trans hnext, hle⟩
  | acknowledge index =>
      have hseq : ∀ {seq : ℕ}, seq = s.timeline.seq →
          s.timeline.seq ≤ seq ∧ seq ≤ u64Max := by
        intro seq hseq
        omega
      rcases s.logBook_takeJournalAck index with hsame | htaken
      · exact hseq (congrArg LogBook.seq hsame)
      · obtain ⟨pending, outcome, rest, -, -, htaken⟩ := htaken
        simp only at htaken
        split at htaken
        · obtain ⟨note, size, hnote, hbook⟩ := htaken
          have hnumber : (s.takeJournalAck index).timeline.seq = note.seq :=
            congrArg LogBook.seq hbook
          rw [hnumber, hnote.seq]
          exact ⟨le_satAdd 1 hcap, satAdd_le_cap _ _ _⟩
        · exact hseq (congrArg LogBook.seq htaken)
  | other hsame =>
      have hseq : t.timeline.seq = s.timeline.seq := congrArg LogBook.seq hsame
      omega

theorem offering_sync_waited (hsync : s.offering.sync = some true) :
    s.timeline.logging = .healthy := by
  have hwaited : s.waitsForJournal = true := (Offered.wrote_of_sync hsync).2
  simp only [waitsForJournal, Bool.and_eq_true, decide_eq_true_eq] at hwaited
  exact hwaited.1

theorem LogStep.follows (h : LogStep (s, offered) (t, offered'))
    (hfollows : s.logBook.Follows offered) (hcap : s.timeline.seq ≤ u64Max)
    (hroom : t.timeline.seq < u64Max) : t.logBook.Follows offered' := by
  have hle := (h.seq_le hcap).1
  have hbefore : s.timeline.seq < u64Max := by
    omega
  cases h with
  | emit kind direction data actor operationId runId metadata hkind =>
      have hnext : s.nextSeq = s.timeline.seq + 1 := satAdd_eq_add hbefore
      have hhealth : s.timeline.journalHealthSeq ≤ s.nextSeq := by
        have hold := hfollows.health_le
        simp only [logBook] at hold
        omega
      obtain ⟨event, size, hseq, hdurable, -, hbook⟩ := s.logBook_emitInner kind direction data
        actor operationId runId metadata hkind hhealth
      have hemit : ((s.logBook.journaled s.offering).delivered event size).Follows
          (offered ++ [s.offering]) :=
        hfollows.emit hnext offering_sync_waited hseq hdurable size
      split at hbook
      · obtain ⟨note, noteSize, hnote, hbook⟩ := hbook
        rw [hbook]
        have hevent : ((s.logBook.journaled s.offering).delivered event size).seq = s.nextSeq :=
          hseq
        rw [← hevent] at hnote
        have hnumber : (s.emitInner kind direction data actor operationId runId
            metadata).timeline.seq = note.seq := congrArg LogBook.seq hbook
        rw [hnumber, hnote.seq, hevent] at hroom
        refine hemit.degradedNote ?_ hnote noteSize
        rw [hevent]
        simp only [satAdd] at hroom
        omega
      · rw [hbook]
        exact hemit
  | acknowledge index =>
      rcases s.logBook_takeJournalAck index with hsame | htaken
      · rw [hsame]
        exact hfollows
      · obtain ⟨pending, outcome, rest, hpending, houtcomes, htaken⟩ := htaken
        have hheard := hfollows.acknowledge hpending houtcomes
        simp only at htaken
        split at htaken
        · obtain ⟨note, size, hnote, hbook⟩ := htaken
          rw [hbook]
          exact hheard.degradedNote hbefore hnote size
        · rw [htaken]
          exact hheard
  | other hsame =>
      rw [hsame]
      exact hfollows

/-- A note is left exactly when the log turns from healthy to degraded. -/
theorem LogStep.degradedNotes (h : LogStep (s, offered) (t, offered'))
    (hfollows : s.logBook.Follows offered) (hcap : s.timeline.seq ≤ u64Max) :
    t.degradedNotes = s.degradedNotes +
      if s.timeline.logging = .healthy ∧ t.timeline.logging = .degraded then 1 else 0 := by
  cases h with
  | emit kind direction data actor operationId runId metadata hkind =>
      have hhealth : s.timeline.journalHealthSeq ≤ s.nextSeq :=
        hfollows.health_le.trans (le_satAdd 1 hcap)
      obtain ⟨event, size, -, -, hplain, hbook⟩ := s.logBook_emitInner kind direction data
        actor operationId runId metadata hkind hhealth
      split at hbook
      · rename_i hloud
        obtain ⟨note, noteSize, hnote, hbook⟩ := hbook
        have hnotes := congrArg LogBook.degradedNotes hbook
        have hlogging := congrArg LogBook.logging hbook
        simp only [LogBook.delivered, LogBook.journaled, hplain, hnote.kind, hloud.1, if_false,
          if_true] at hnotes hlogging
        rw [if_pos ⟨hloud.2, hlogging⟩]
        exact hnotes
      · rename_i hquiet
        have hnotes := congrArg LogBook.degradedNotes hbook
        have hlogging := congrArg LogBook.logging hbook
        have hstays : ¬(s.timeline.logging = .healthy ∧
            (s.emitInner kind direction data actor operationId runId metadata).timeline.logging =
              .degraded) := by
          intro hturn
          simp only [logBook, LogBook.delivered, LogBook.journaled] at hlogging
          cases hsync : s.offering.sync with
          | none => simp [hsync, hturn.1, hturn.2] at hlogging
          | some good =>
              cases good with
              | true => simp [hsync, hturn.1, hturn.2] at hlogging
              | false => exact hquiet ⟨hsync, hturn.1⟩
        rw [if_neg hstays]
        simp only [LogBook.delivered, LogBook.journaled, hplain, if_false] at hnotes
        exact hnotes
  | acknowledge index =>
      rcases s.logBook_takeJournalAck index with hsame | htaken
      · have hnotes : (s.takeJournalAck index).degradedNotes = s.degradedNotes :=
          congrArg LogBook.degradedNotes hsame
        have hlogging : (s.takeJournalAck index).timeline.logging = s.timeline.logging :=
          congrArg LogBook.logging hsame
        rw [hnotes, hlogging]
        cases s.timeline.logging <;> simp
      · obtain ⟨pending, outcome, rest, -, -, htaken⟩ := htaken
        simp only at htaken
        split at htaken
        · rename_i hloud
          obtain ⟨note, size, hnote, hbook⟩ := htaken
          have hnotes := congrArg LogBook.degradedNotes hbook
          have hlogging := congrArg LogBook.logging hbook
          simp only [LogBook.delivered, LogBook.heard, hnote.kind, hloud.1, logBook, hloud.2.1,
            if_true, Bool.false_eq_true, if_false] at hnotes hlogging
          rw [if_pos ⟨hloud.2.2, hlogging⟩]
          exact hnotes
        · rename_i hquiet
          have hnotes : (s.takeJournalAck index).degradedNotes = s.degradedNotes :=
            congrArg LogBook.degradedNotes htaken
          have hlogging := congrArg LogBook.logging htaken
          have hstays : ¬(s.timeline.logging = .healthy ∧
              (s.takeJournalAck index).timeline.logging = .degraded) := by
            intro hturn
            simp only [logBook, LogBook.heard, hturn.1, hturn.2] at hlogging
            split at hlogging
            · rename_i hnew
              cases hdurable : Offered.isDurable outcome with
              | true => simp [hdurable] at hlogging
              | false => exact hquiet ⟨hdurable, hnew, hturn.1⟩
            · cases hlogging
          rw [if_neg hstays]
          exact hnotes
  | other hsame =>
      have hnotes : t.degradedNotes = s.degradedNotes := congrArg LogBook.degradedNotes hsame
      have hlogging : t.timeline.logging = s.timeline.logging := congrArg LogBook.logging hsame
      rw [hnotes, hlogging]
      cases s.timeline.logging <;> simp

/-! ## Runs -/

section Spawned

variable (config : SlotConfig) (transportProfile : Option TransportProfile)
  (modelProfile : Option ModelProfile) (limits : ControlLimits) (instantMax : ℕ)
  (daemonEpoch : Uuid) (daemonStarted : ℕ) (world : World) (stagedSource : Option String)

theorem follows_spawn :
    (spawn config transportProfile modelProfile limits instantMax daemonEpoch daemonStarted world
      stagedSource).logBook.Follows [] := by
  constructor <;> simp [spawn, logBook, EventRing.new, EventRing.timeline]

/-- What holds of the log in every run. -/
theorem LogRun.follows
    (hrun : LogRun (spawn config transportProfile modelProfile limits instantMax daemonEpoch
      daemonStarted world stagedSource, []) (s, offered)) :
    s.timeline.seq ≤ u64Max ∧
      (s.timeline.seq < u64Max → s.logBook.Follows offered) := by
  generalize hend : (s, offered) = reached at hrun
  induction hrun generalizing s offered with
  | refl =>
      cases hend
      exact ⟨Nat.zero_le _, fun _ => follows_spawn _ _ _ _ _ _ _ _ _⟩
  | @tail before after hbefore hstep ih =>
      subst hend
      obtain ⟨previous, earlier⟩ := before
      obtain ⟨hcap, hfollows⟩ := ih rfl
      obtain ⟨hle, hcap'⟩ := hstep.seq_le hcap
      refine ⟨hcap', ?_⟩
      intro hroom
      exact hstep.follows (hfollows (by omega)) hcap hroom

end Spawned

/-- Once everything has arrived the last word is that of the last event. -/
theorem LogBook.Follows.healthy_iff (h : book.Follows offered)
    (hempty : book.pendingAcks = []) :
    book.logging = .healthy ↔
      ∀ last, offered.getLast? = some last → last.heard = true ∧ last.wrote = true := by
  have hall : ∀ o ∈ offered, o.seq ≤ book.journalHealthSeq := by
    intro o ho
    by_contra hbehind
    have hack := (h.newer o ho (Nat.not_le.1 hbehind)).2
    rw [hempty] at hack
    cases hack
  rcases h.newest with ⟨hzero, hhealthy⟩ | ⟨o, ho, hhealth, reported, rest, hheard⟩
  · have hnone : offered = [] := by
      cases hoffered : offered with
      | nil => rfl
      | cons o others =>
          have ho : o ∈ offered := hoffered ▸ List.mem_cons_self
          have hbounds := h.bounds o ho
          have hle := hall o ho
          omega
    simp [hhealthy, hnone]
  · have hlast : offered.getLast? = some o := by
      cases hget : offered.getLast? with
      | none =>
          rw [List.getLast?_eq_none_iff.1 hget] at ho
          cases ho
      | some last =>
          have hmem := List.mem_of_getLast? hget
          have hnumber : (offered.map Offered.seq).getLast? = some last.seq := by
            rw [List.getLast?_map, hget]
            rfl
          have hge := le_getLast_of_increasing h.increasing hnumber (List.mem_map_of_mem ho)
          have hle := hall last hmem
          rw [eq_of_offered_seq h.increasing hmem ho (by omega)]
    have hrest : rest = [] := by
      by_contra hrest
      obtain ⟨ack, hack, -⟩ := hheard.awaited hrest
      rw [hempty] at hack
      cases hack
    have houtcomes := hheard.outcomes
    rw [hrest, List.append_nil] at houtcomes
    rw [hheard.logging, houtcomes, Offered.getLast?_outcomes, hlast]
    simp

/-- What was heard of a newer event keeps older acknowledgements from changing the log. -/
theorem LogBook.Follows.older (h : s.logBook.Follows offered) {index : ℕ} {pending : PendingAck}
    (hpending : s.timeline.pendingAcks[index]? = some pending) {later : Offered}
    (hlater : later ∈ offered) (hold : pending.seq < later.seq)
    (hreported : later.sync.isSome ∨
      { seq := later.seq, outcomes := later.async } ∉ s.timeline.pendingAcks) :
    (s.takeJournalAck index).timeline.logging = s.timeline.logging := by
  have hhealth : later.seq ≤ s.timeline.journalHealthSeq := by
    by_contra hbehind
    obtain ⟨hnone, hack⟩ := h.newer later hlater (Nat.not_le.1 hbehind)
    rcases hreported with hsync | hgone
    · rw [hnone] at hsync
      cases hsync
    · exact hgone hack
  rcases s.logBook_takeJournalAck index with hsame | htaken
  · exact congrArg LogBook.logging hsame
  · obtain ⟨other, outcome, rest, hother, -, htaken⟩ := htaken
    rw [hpending] at hother
    cases hother
    have hnot : ¬s.timeline.journalHealthSeq ≤ pending.seq := by
      omega
    simp only [hnot, false_and, and_false, if_false] at htaken
    have hlogging := congrArg LogBook.logging htaken
    simp only [LogBook.heard, logBook, hnot, if_false] at hlogging
    exact hlogging

/-- However emissions, acknowledgements and everything else of the actor alternate,
while the counter did not saturate: once everything has arrived the log is healthy
exactly if the journal wrote the last event and the actor heard of it; older
acknowledgements change nothing; only what was written is marked durable; and each
turn from healthy to degraded leaves one note. -/
theorem logging_follows_newest (config : SlotConfig)
    (transportProfile : Option TransportProfile) (modelProfile : Option ModelProfile)
    (limits : ControlLimits) (instantMax : ℕ) (daemonEpoch : Uuid) (daemonStarted : ℕ)
    (world : World) (stagedSource : Option String) (s : SlotActor) (offered : List Offered)
    (hrun : LogRun (spawn config transportProfile modelProfile limits instantMax daemonEpoch
      daemonStarted world stagedSource, []) (s, offered))
    (hroom : s.timeline.seq < u64Max) :
    (offered.map Offered.seq).Pairwise (· < ·) ∧
      (s.timeline.pendingAcks = [] → (s.timeline.logging = .healthy ↔
        ∀ last, offered.getLast? = some last → last.heard = true ∧ last.wrote = true)) ∧
      (∀ index pending later, s.timeline.pendingAcks[index]? = some pending →
        later ∈ offered → pending.seq < later.seq →
        (later.sync.isSome ∨
          { seq := later.seq, outcomes := later.async } ∉ s.timeline.pendingAcks) →
        (s.takeJournalAck index).timeline.logging = s.timeline.logging) ∧
      (∀ event ∈ s.timeline.ring.timeline, event.durable = true →
        ∃ o ∈ offered, o.seq = event.seq ∧ o.wrote = true) ∧
      ∀ t offered', LogStep (s, offered) (t, offered') →
        t.degradedNotes = s.degradedNotes +
          if s.timeline.logging = .healthy ∧ t.timeline.logging = .degraded then 1 else 0 := by
  obtain ⟨hcap, hfollows⟩ := LogRun.follows _ _ _ _ _ _ _ _ _ hrun
  have h := hfollows hroom
  refine ⟨h.increasing, h.healthy_iff, ?_, h.durable, ?_⟩
  · intro index pending later hpending hlater hold hreported
    exact h.older hpending hlater hold hreported
  · intro t offered' hstep
    exact hstep.degradedNotes h hcap

/-! ## A full tracker -/

/-- The acknowledgements which are tracked at once. -/
def journalAckQueue : ℕ := 1024

/-- The journal refuses the first event and writes all others; the tracker is full
once it holds `journalAckQueue` acknowledgements. -/
def trackerWorld : World where
  answers := fun asked => {
    elapsed := 0
    wall := 0
    uuid := 0
    eventSize := 300
    journal :=
      if asked ≤ 2 then .refused "disk full"
      else .accepted .durable (decide (asked ≤ journalAckQueue + 2))
    send := .sent
    writer := []
    breaking := none
    ready := false
    endpointPresent := false
    opened := .error { code := .internal, message := "absent" }
    macroStart := none
    macroRecordFits := true
    macroDriverGone := false }
  asked := 0
  clock := 0

def trackerStart : SlotActor :=
  spawn
    { port := "ttyUSB0", transportProfile := none, modelProfile := none, modelFamily := none
      modelName := none, enabled := true }
    none none {} 0 7 0 trackerWorld none

/-- One received byte. -/
def emitByte (s : SlotActor) : SlotActor := s.emitInner .rx .rx [65] none none none []

theorem world_markLoggingDegraded (s : SlotActor) (error : String) :
    (degradation error (s.markLoggingDegraded error)).1.world = s.world := by
  simp only [degradation, markLoggingDegraded, markLoggingDegradedAt]
  split <;> rfl

theorem world_trackJournalAck (s : SlotActor) (seq : ℕ) (ack : JournalAck)
    (permit alreadyTimedOut : Bool) :
    (s.trackJournalAck seq ack permit alreadyTimedOut).1.world = s.world := by
  unfold trackJournalAck
  split <;> rfl

theorem world_journalEvent (s : SlotActor) (eventSeq : ℕ) :
    (s.journalEvent eventSeq).1.world = s.world := by
  unfold journalEvent
  cases s.answer.journal with
  | refused error => exact s.world_markLoggingDegraded error
  | accepted ack permit =>
      simp only
      split
      · cases ack with
        | durable => rfl
        | failed error => exact s.world_markLoggingDegraded error
        | late result =>
            exact (world_trackJournalAck _ _ _ _ _).trans (s.world_markLoggingDegraded _)
      · have htrack := s.world_trackJournalAck eventSeq ack permit false
        cases htracked : s.trackJournalAck eventSeq ack permit false with
        | mk tracked outcome =>
            rw [htracked] at htrack
            cases outcome with
            | ok _ => exact htrack
            | error error => exact (tracked.world_markLoggingDegraded error).trans htrack

/-- While logging is degraded an event leaves no note and asks once. -/
theorem world_emitByte (s : SlotActor) (hdegraded : s.timeline.logging = .degraded)
    (hhealth : s.timeline.journalHealthSeq ≤ s.nextSeq) :
    s.emitByte.world = s.ask.world := by
  unfold emitByte emitInner
  extract_lets s₁ eventSeq offsets moved s₂ journaled event delivered
  have hspec := journalEvent_spec s₂ eventSeq rfl hhealth
  have hquiet : journaled.2.2 = none := by
    have hnote := hspec.2.2
    have hlogging : s₂.timeline.logging = .degraded := hdegraded
    rw [hlogging] at hnote
    simpa using hnote
  have hworld : journaled.1.world = s₂.world := world_journalEvent s₂ eventSeq
  simp only [hquiet]
  exact hworld

theorem logBook_emitByte (s : SlotActor) (hdegraded : s.timeline.logging = .degraded)
    (hhealth : s.timeline.journalHealthSeq ≤ s.nextSeq) :
    ∃ event size, event.seq = s.nextSeq ∧
      s.emitByte.logBook = (s.logBook.journaled s.offering).delivered event size := by
  obtain ⟨event, size, hseq, -, -, hbook⟩ :=
    s.logBook_emitInner .rx .rx [65] none none none [] (by decide) hhealth
  rw [if_neg (by rw [hdegraded]; intro h; cases h.2)] at hbook
  exact ⟨event, size, hseq, hbook⟩

/-- A refused event, then one whose late acknowledgement restores the log. -/
theorem logging_follows_newest_restored :
    (trackerStart.emitByte.emitByte.takeJournalAck 0).timeline.logging = .healthy := by
  have hrun : LogRun (trackerStart, [])
      (trackerStart.emitByte.emitByte.takeJournalAck 0,
        [trackerStart.offering, trackerStart.emitByte.offering]) :=
    ((Relation.ReflTransGen.single
      (.emit .rx .rx [65] none none none [] (by decide))).tail
        (.emit .rx .rx [65] none none none [] (by decide))).tail (.acknowledge 0)
  refine ((logging_follows_newest _ none none {} 0 7 0 trackerWorld none _ _ hrun
    (by decide)).2.1 rfl).2 ?_
  intro last hlast
  cases hlast
  exact ⟨rfl, rfl⟩

/-- The first event was refused, and `count` others are tracked. -/
structure Crowded (count : ℕ) (s : SlotActor) (offered : List Offered) : Prop where
  run : LogRun (trackerStart, []) (s, offered)
  world : s.world = { trackerWorld with asked := 2 + count }
  logging : s.timeline.logging = .degraded
  health : s.timeline.journalHealthSeq = 1
  seq : s.timeline.seq = 2 + count
  acks : s.timeline.pendingAcks = (List.range count).map fun index =>
    { seq := 3 + index, outcomes := [.durable] }
  offered : offered = { seq := 1, answer := .refused "disk full", waited := true } ::
    (List.range count).map fun index =>
      { seq := 3 + index, answer := .accepted .durable true, waited := false }

theorem crowded_zero : ∃ s offered, Crowded 0 s offered := by
  refine ⟨trackerStart.emitByte, [trackerStart.offering], ?_⟩
  constructor
  · exact .single (.emit .rx .rx [65] none none none [] (by decide))
  · rfl
  · rfl
  · rfl
  · rfl
  · rfl
  · rfl

theorem Crowded.succ {count : ℕ} {s : SlotActor} {offered : List Offered}
    (h : Crowded count s offered) (hcount : count < journalAckQueue) :
    Crowded (count + 1) s.emitByte (offered ++ [s.offering]) := by
  have hroom : 2 + count + 1 ≤ u64Max := by
    simp only [journalAckQueue] at hcount
    simp only [u64Max]
    omega
  have hnext : s.nextSeq = 3 + count := by
    simp only [nextSeq, h.seq, satAdd_eq_add hroom]
    omega
  have hhealth : s.timeline.journalHealthSeq ≤ s.nextSeq := by
    rw [h.health, hnext]
    omega
  have hanswer : s.ask.answer.journal = .accepted .durable true := by
    have htracked : decide (2 + count + 1 ≤ journalAckQueue + 2) = true := by
      simp only [decide_eq_true_eq]
      omega
    have hlate : ¬2 + count + 1 ≤ 2 := by
      omega
    simp only [answer, ask, h.world, trackerWorld, hlate, if_false, htracked]
  have hoffering : s.offering =
      { seq := 3 + count, answer := .accepted .durable true, waited := false } := by
    simp only [offering, hnext, hanswer, waitsForJournal, h.logging]
    rfl
  obtain ⟨event, size, hseq, hbook⟩ := s.logBook_emitByte h.logging hhealth
  rw [hoffering] at hbook
  constructor
  · exact h.run.tail (.emit .rx .rx [65] none none none [] (by decide))
  · rw [s.world_emitByte h.logging hhealth]
    simp only [ask, h.world]
    rfl
  · exact (congrArg LogBook.logging hbook).trans h.logging
  · exact (congrArg LogBook.journalHealthSeq hbook).trans h.health
  · refine (congrArg LogBook.seq hbook).trans (hseq.trans (hnext.trans ?_))
    omega
  · refine (congrArg LogBook.pendingAcks hbook).trans ?_
    simp only [LogBook.delivered, LogBook.journaled, logBook, h.acks, List.range_succ,
      List.map_append]
    rfl
  · rw [hoffering, h.offered, List.range_succ, List.map_append, List.cons_append]
    rfl

theorem crowded (count : ℕ) (hcount : count ≤ journalAckQueue) :
    ∃ s offered, Crowded count s offered := by
  induction count with
  | zero => exact crowded_zero
  | succ count ih =>
      obtain ⟨s, offered, h⟩ := ih (by omega)
      exact ⟨_, _, h.succ hcount⟩

/-- Older acknowledgements arrive one after the other. -/
theorem logRun_takeJournalAck {start : SlotActor × List Offered} (acks : List PendingAck) :
    ∀ {s : SlotActor}, s.timeline.pendingAcks = acks →
      (∀ ack ∈ acks, ack.outcomes = [.durable] ∧ ack.seq < s.timeline.journalHealthSeq) →
      LogRun start (s, offered) →
      ∃ t, LogRun start (t, offered) ∧ t.timeline.pendingAcks = [] ∧
        t.timeline.logging = s.timeline.logging ∧ t.timeline.seq = s.timeline.seq := by
  induction acks with
  | nil =>
      intro s hacks _ hrun
      exact ⟨s, hrun, hacks, rfl, rfl⟩
  | cons ack rest ih =>
      intro s hacks hold hrun
      obtain ⟨houtcomes, hseq⟩ := hold ack List.mem_cons_self
      have hnext : LogStep (s, offered) (s.takeJournalAck 0, offered) := .acknowledge 0
      have hbook : (s.takeJournalAck 0).logBook = LogBook.heard
          { s.logBook with pendingAcks := rest } ack.seq .durable := by
        have hget : s.ask.timeline.pendingAcks[0]? = some ack := by
          rw [show s.ask.timeline.pendingAcks = ack :: rest from hacks]
          rfl
        have herase : s.ask.timeline.pendingAcks.eraseIdx 0 = rest := by
          rw [show s.ask.timeline.pendingAcks = ack :: rest from hacks]
          rfl
        have hhandled := logBook_handleJournalAckResult
          { s.ask with timeline.pendingAcks := rest } ack.seq .durable
        simp only [Offered.isDurable, Bool.true_eq_false, false_and, if_false] at hhandled
        simp only [takeJournalAck, hget, houtcomes, if_true, herase]
        exact hhandled
      have hhealth : (s.takeJournalAck 0).timeline.journalHealthSeq =
          s.timeline.journalHealthSeq := by
        refine (congrArg LogBook.journalHealthSeq hbook).trans ?_
        simp only [LogBook.heard, logBook]
        omega
      have hlogging : (s.takeJournalAck 0).timeline.logging = s.timeline.logging := by
        refine (congrArg LogBook.logging hbook).trans ?_
        have hnot : ¬s.timeline.journalHealthSeq ≤ ack.seq := by
          omega
        simp only [LogBook.heard, logBook, hnot, if_false]
      obtain ⟨t, hreach, hempty, hlog, hnumber⟩ := ih (congrArg LogBook.pendingAcks hbook)
        (by
          intro other hother
          rw [hhealth]
          exact hold other (List.mem_cons_of_mem _ hother))
        (hrun.tail hnext)
      exact ⟨t, hreach, hempty, hlog.trans hlogging,
        hnumber.trans (congrArg LogBook.seq hbook)⟩

/-- With a full tracker the last event is written and never heard of: everything has
arrived, the newest event of which anything was heard is durable, and the log stays
degraded. -/
theorem logging_stays_degraded_when_full :
    ∃ s offered, LogRun (trackerStart, []) (s, offered) ∧ s.timeline.seq < u64Max ∧
      s.timeline.pendingAcks = [] ∧ s.timeline.logging = .degraded ∧
      (∃ last, offered.getLast? = some last ∧ last.wrote = true) ∧
      ∃ newest, (offered.filter Offered.heard).getLast? = some newest ∧ newest.wrote = true := by
  obtain ⟨s, offered, h⟩ := crowded journalAckQueue (le_refl _)
  have hnext : s.nextSeq = journalAckQueue + 3 := by
    simp only [nextSeq, h.seq]
    decide
  have hhealth : s.timeline.journalHealthSeq ≤ s.nextSeq := by
    rw [h.health, hnext]
    decide
  have hoffering : s.offering =
      { seq := journalAckQueue + 3, answer := .accepted .durable false, waited := false } := by
    have hanswer : s.ask.answer.journal = .accepted .durable false := by
      simp only [answer, ask, h.world]
      rfl
    simp only [offering, hnext, hanswer, waitsForJournal, h.logging]
    rfl
  obtain ⟨event, size, hseq, hbook⟩ := s.logBook_emitByte h.logging hhealth
  rw [hoffering] at hbook
  have hacks : s.emitByte.timeline.pendingAcks = s.timeline.pendingAcks := by
    refine (congrArg LogBook.pendingAcks hbook).trans ?_
    simp only [LogBook.delivered, LogBook.journaled, logBook, Offered.pendingAcks, Offered.async]
    exact List.append_nil _
  have hlogging : s.emitByte.timeline.logging = .degraded := congrArg LogBook.logging hbook
  have hnumber : s.emitByte.timeline.seq = journalAckQueue + 3 :=
    (congrArg LogBook.seq hbook).trans (hseq.trans hnext)
  have hnewHealth : s.emitByte.timeline.journalHealthSeq = journalAckQueue + 3 :=
    congrArg LogBook.journalHealthSeq hbook
  have hrun : LogRun (trackerStart, []) (s.emitByte, offered ++ [s.offering]) :=
    h.run.tail (.emit .rx .rx [65] none none none [] (by decide))
  obtain ⟨t, hreach, hempty, hlog, hcount⟩ := logRun_takeJournalAck s.timeline.pendingAcks hacks
    (by
      intro ack hack
      rw [h.acks] at hack
      obtain ⟨index, hindex, rfl⟩ := List.mem_map.1 hack
      have hlt := List.mem_range.1 hindex
      rw [hnewHealth]
      exact ⟨rfl, by simp only; omega⟩) hrun
  refine ⟨t, _, hreach, ?_, hempty, hlog.trans hlogging, ⟨s.offering, by simp, ?_⟩, ?_⟩
  · rw [hcount, hnumber]
    decide
  · rw [hoffering]
    rfl
  · have hold : offered.filter Offered.heard = offered := by
      apply List.filter_eq_self.2
      intro o ho
      rw [h.offered] at ho
      rcases List.mem_cons.1 ho with rfl | htracked
      · rfl
      · obtain ⟨index, -, rfl⟩ := List.mem_map.1 htracked
        rfl
    have hunheard : s.offering.heard = false := by
      rw [hoffering]
      rfl
    have hsplit : journalAckQueue = 1023 + 1 := rfl
    rw [List.filter_append, hold, List.filter_cons_of_neg (by simp [hunheard]), List.filter_nil,
      List.append_nil, h.offered, hsplit, List.range_succ, List.map_append, ← List.cons_append,
      List.map_singleton, List.getLast?_concat]
    exact ⟨_, rfl, rfl⟩

end SlotActor
end SerialPlatform
