import SerialPlatform.SessionArchive

/-!
# Runs of the archive

The worker stores what the parser completes, as long as no event of another daemon epoch
finds a pending row which the flush does not return, and no gap is reported while
a row is pending.
-/

namespace SerialPlatform.Display

open TerminalText FallibleState GuardedRuns

/-! ## Rows which continue rows -/

/-- The rows between two states of a stream, each of which tells whether the open row
continues another one. -/
structure Joins (base : Bool) (lines : List DisplayLine) (last : Bool) : Prop where
  line : ∀ before line after, lines = before ++ line :: after → line.continuesPrevious = true →
    base = true ∨ ∃ earlier ∈ before, Streamed earlier.eventKind
  last : last = true → base = true ∨ ∃ line ∈ lines, Streamed line.eventKind

namespace Joins

variable {base middle last : Bool} {lines lines' : List DisplayLine}

theorem nil : Joins base [] base where
  line := by
    intro before line after hlines
    cases before <;> cases hlines
  last := .inl

theorem append (h : Joins base lines middle) (h' : Joins middle lines' last) :
    Joins base (lines ++ lines') last where
  line := by
    intro before line after hsplit hflag
    rcases List.append_eq_append_iff.mp hsplit with ⟨more, rfl, hlines'⟩ | ⟨more, hlines, hmore⟩
    · rcases h'.line more line after hlines' hflag with hmiddle | ⟨earlier, hmem, hkind⟩
      · rcases h.last hmiddle with hbase | ⟨earlier, hmem, hkind⟩
        · exact .inl hbase
        · exact .inr ⟨earlier, List.mem_append_left _ hmem, hkind⟩
      · exact .inr ⟨earlier, List.mem_append_right _ hmem, hkind⟩
    · cases more with
      | nil =>
          have hfirst : lines' = [] ++ line :: after := by simpa using hmore.symm
          have hbefore : before = lines := by simpa using hlines.symm
          rw [hbefore]
          rcases h'.line [] line after hfirst hflag with hmiddle | ⟨earlier, hmem, -⟩
          · exact h.last hmiddle
          · cases hmem
      | cons first rest =>
          cases hmore
          exact h.line before line rest hlines hflag
  last := by
    intro hlast
    rcases h'.last hlast with hmiddle | ⟨line, hmem, hkind⟩
    · rcases h.last hmiddle with hbase | ⟨line, hmem, hkind⟩
      · exact .inl hbase
      · exact .inr ⟨line, List.mem_append_left _ hmem, hkind⟩
    · exact .inr ⟨line, List.mem_append_right _ hmem, hkind⟩

theorem ended (h : Joins base lines last) : Joins base lines false :=
  ⟨h.line, fun hlast => by cases hlast⟩

/-- Rows of a stream, of which only the first may continue a row before them. -/
theorem of_streamed (hstreamed : ∀ line ∈ lines, Streamed line.eventKind)
    (hfirst : ∀ line ∈ lines.head?, line.continuesPrevious = true → base = true)
    (hlast : last = true → lines ≠ [] ∨ base = true) : Joins base lines last where
  line := by
    rintro before line after rfl hflag
    cases before with
    | nil => exact .inl (hfirst line rfl hflag)
    | cons earlier rest =>
        exact .inr ⟨earlier, List.mem_cons_self, hstreamed earlier List.mem_cons_self⟩
  last := by
    intro hflag
    rcases hlast hflag with hsome | hbase
    · obtain ⟨line, hline⟩ := List.exists_mem_of_ne_nil lines hsome
      exact .inr ⟨line, hline, hstreamed line hline⟩
    · exact .inl hbase

/-- Rows which continue no other. -/
theorem of_separate (hseparate : ∀ line ∈ lines, line.continuesPrevious = false) :
    Joins base lines base where
  line := by
    rintro before line after rfl hflag
    rw [hseparate line (by simp)] at hflag
    cases hflag
  last := .inl

theorem joined (h : Joins false lines last) : RecordedStream.Joined lines := by
  intro before line after hlines hflag
  simpa using h.line before line after hlines hflag

/-- Where no row of the stream is open, the first one does not continue another. -/
theorem find (h : Joins false lines last) {line : DisplayLine}
    (hfind : lines.find? (fun line => decide (Streamed line.eventKind)) = some line) :
    line.continuesPrevious = false := by
  obtain ⟨-, before, after, hlines, hbefore⟩ := List.find?_eq_some_iff_append.mp hfind
  cases hflag : line.continuesPrevious with
  | false => rfl
  | true =>
      rcases h.line before line after hlines hflag with hbase | ⟨earlier, hmem, hkind⟩
      · cases hbase
      · simpa [hkind] using hbefore earlier hmem

end Joins

/-! ## The worker -/

namespace ArchiveWorker

variable {worker : ArchiveWorker}

/-- The rows without the gaps which the worker inserted. -/
def stored (worker : ArchiveWorker) : List DisplayLine :=
  worker.rows.filter (fun line => line.daemonEpoch.isSome)

theorem writeCompleted_eq (lines : List DisplayLine) (worker : ArchiveWorker)
    (hfirst : worker.breakNextStream = true →
      ∀ line ∈ lines.find? (fun line => decide (Streamed line.eventKind)),
        line.continuesPrevious = false) :
    worker.writeCompleted lines =
      { worker with
        rows := worker.rows ++ lines
        breakNextStream :=
          worker.breakNextStream && !lines.any (fun line => decide (Streamed line.eventKind)) } := by
  induction lines generalizing worker with
  | nil => simp [writeCompleted]
  | cons line rest ih =>
      rw [writeCompleted]
      by_cases hbreaks : worker.breakNextStream = true ∧ Streamed line.eventKind
      · rw [if_pos hbreaks, ih _ (fun hfalse => by cases hfalse)]
        have hflag : line.continuesPrevious = false :=
          hfirst hbreaks.1 line (by simp [hbreaks.2])
        have hline : { line with continuesPrevious := false } = line := by
          rw [← hflag]
        simp [writeRow, hline, hbreaks.2]
      · rw [if_neg hbreaks]
        have hrest : (worker.writeRow line).breakNextStream = true →
            ∀ line ∈ rest.find? (fun line => decide (Streamed line.eventKind)),
              line.continuesPrevious = false := by
          intro hbreak later hlater
          have hkind : ¬ Streamed line.eventKind := fun hkind => hbreaks ⟨hbreak, hkind⟩
          exact hfirst hbreak later (by simpa [hkind] using hlater)
        rw [ih _ hrest]
        cases hbreak : worker.breakNextStream with
        | false => simp [writeRow, hbreak]
        | true =>
            have hkind : ¬ Streamed line.eventKind := fun hkind => hbreaks ⟨hbreak, hkind⟩
            simp [writeRow, hbreak, hkind]

/-- The rows which a batch adds before its own: the pending row if it is not committed, and
a gap. -/
def sealedRows (texts : Texts) (batch : StreamDisplayBatch) (worker : ArchiveWorker) :
    List DisplayLine :=
  if worker.epochChanged batch then
    (if batch.pendingCommitted then [] else worker.pending.toList) ++
      [gapLine texts 0 continuityChanged]
  else []

theorem handle_append (texts : Texts) (batch : StreamDisplayBatch)
    (hfirst : worker.breakNextStream = true →
      ∀ line ∈ batch.completed.find? (fun line => decide (Streamed line.eventKind)),
        line.continuesPrevious = false)
    (hpending : worker.breakNextStream = true →
      ¬ batch.completed.any (fun line => decide (Streamed line.eventKind)) = true →
      ∀ line ∈ batch.pending, line.continuesPrevious = false) :
    worker.handle texts (.append batch false) =
      { rows := worker.rows ++ sealedRows texts batch worker ++ batch.completed
        pending := batch.pending
        breakNextStream := worker.breakNextStream &&
          !batch.completed.any (fun line => decide (Streamed line.eventKind)) } := by
  have hbefore : ∃ pending, (let sealedWorker :=
        if (false : Bool) = true ∨ worker.epochChanged batch = true then
          let sealedWorker :=
            if batch.pendingCommitted then { worker with pending := none } else worker.sealPending
          sealedWorker.writeRow (gapLine texts 0 continuityChanged)
        else worker
      if batch.pendingCommitted then { sealedWorker with pending := none } else sealedWorker) =
      { worker with rows := worker.rows ++ sealedRows texts batch worker, pending := pending } := by
    unfold sealedRows
    cases hchanged : worker.epochChanged batch with
    | false =>
        cases hcommitted : batch.pendingCommitted with
        | false => exact ⟨worker.pending, by simp⟩
        | true => exact ⟨none, by simp⟩
    | true =>
        cases hcommitted : batch.pendingCommitted with
        | true => simp [writeRow]
        | false =>
            cases hold : worker.pending with
            | none => simp [sealPending, hold, writeRow]
            | some line => simp [sealPending, hold, writeRow]
  obtain ⟨pending, hbefore⟩ := hbefore
  unfold handle
  dsimp only at hbefore ⊢
  have hwritten := writeCompleted_eq batch.completed
    { worker with rows := worker.rows ++ sealedRows texts batch worker, pending := pending } hfirst
  rw [hbefore, hwritten]
  congr 1
  split_ifs with hbreak
  · cases hnext : batch.pending with
    | none => rfl
    | some line =>
        have hboth := Bool.and_eq_true_iff.mp hbreak
        have hflag := hpending hboth.1 (by simpa using hboth.2) line hnext
        simp [← hflag]
  · rfl

theorem stored_sealedRows (texts : Texts) (batch : StreamDisplayBatch)
    (hkept : worker.epochChanged batch = true → batch.pendingCommitted = true) :
    (sealedRows texts batch worker).filter (fun line => line.daemonEpoch.isSome) = [] := by
  unfold sealedRows
  split_ifs with hchanged hcommitted
  · rfl
  · exact absurd (hkept hchanged) hcommitted
  · rfl

end ArchiveWorker

/-! ## The parser -/

namespace TerminalStreamParser

/-- All contexts of the parser belong to one stream. -/
structure Known (parser : TerminalStreamParser) : Prop where
  identified : ∃ identity, Identified identity parser
  empty : parser.context = none → parser.echoCandidateContext = none

theorem Known.of_empty {parser : TerminalStreamParser} (hcontext : parser.context = none)
    (hcandidate : parser.echoCandidateContext = none) : Known parser where
  identified := ⟨⟨0, 0⟩, by simp [hcontext], by simp [hcandidate]⟩
  empty := fun _ => hcandidate

theorem Known.identity {parser : TerminalStreamParser} {identity : StreamIdentity} (h : Known parser)
    (hcontext : ∀ context ∈ parser.context, context.identity = identity) :
    Identified identity parser := by
  obtain ⟨known, hidentified⟩ := h.identified
  cases hcurrent : parser.context with
  | none => exact ⟨by simp [hcurrent], by simp [h.empty hcurrent]⟩
  | some context =>
      have hsame : known = identity :=
        (hidentified.context context hcurrent).1.symm.trans (hcontext context hcurrent)
      rw [← hsame]
      exact hidentified

theorem epoch_of_pendingLine {parser : TerminalStreamParser} {identity : StreamIdentity}
    {line : DisplayLine} (h : Identified identity parser) (hline : parser.pendingLine = some line) :
    line.daemonEpoch = some identity.daemonEpoch ∧
      line.continuesPrevious = parser.terminal.continuesPrevious := by
  obtain ⟨context, hcontext, hrest⟩ := Option.bind_eq_some_iff.mp hline
  obtain ⟨text, -, hline⟩ := Option.bind_eq_some_iff.mp hrest
  cases hline
  rw [← (h.context context hcontext).1]
  exact ⟨rfl, rfl⟩

theorem pendingLine_of_empty {parser : TerminalStreamParser} (h : parser.context = none) :
    parser.pendingLine = none := by
  unfold pendingLine
  rw [h]
  rfl

/-- The pending row continues what the open row continues. -/
theorem Known.joins_pendingLine {parser : TerminalStreamParser} (h : Known parser) :
    Joins parser.terminal.continuesPrevious parser.pendingLine.toList false := by
  obtain ⟨identity, hidentified⟩ := h.identified
  cases hpending : parser.pendingLine with
  | none => exact Joins.nil.ended
  | some line =>
      refine ⟨?_, fun hlast => by cases hlast⟩
      intro before row after hrows hflag
      cases before with
      | nil =>
          cases hrows
          rw [← (epoch_of_pendingLine hidentified hpending).2]
          exact .inl hflag
      | cons first rest =>
          have hlength := congrArg List.length hrows
          simp at hlength

theorem Shows.joins {identity : StreamIdentity} {parser parser' : TerminalStreamParser}
    {lines : List DisplayLine} (h : Shows identity parser lines parser') :
    Joins parser.terminal.continuesPrevious lines parser'.terminal.continuesPrevious :=
  .of_streamed (fun line hline => (h.streamed line hline).2) h.first h.unfinished

theorem Flushes.joins {identity : StreamIdentity} {parser parser' : TerminalStreamParser}
    {lines : List DisplayLine} (h : Flushes identity parser lines parser') :
    Joins parser.terminal.continuesPrevious lines false :=
  .of_streamed (fun line hline => (h.streamed line hline).2) h.first (fun hlast => by cases hlast)

end TerminalStreamParser

namespace RecordedStream

open TerminalStreamParser

section
variable {texts : Texts} {turns : ℕ} {parser parser' : TerminalStreamParser}
variable {batch : StreamDisplayBatch} {event : TimelineEvent}

theorem eventToLines_separate (texts : Texts) (event : TimelineEvent) :
    ∀ line ∈ texts.labels.eventToLines event,
      line.continuesPrevious = false ∧ line.daemonEpoch.isSome = true := by
  intro line hline
  obtain ⟨text, -, rfl⟩ := List.mem_map.mp hline
  exact ⟨rfl, rfl⟩

/-- What pushing an event makes of the parser and of a worker which has its pending row. -/
structure Pushed (texts : Texts) (turns : ℕ) (event : TimelineEvent)
    (parser : TerminalStreamParser) (batch : StreamDisplayBatch) (parser' : TerminalStreamParser) :
    Prop where
  known : Known parser'
  pending : batch.pending = parser'.pendingLine
  identified : ∀ line ∈ batch.completed, line.daemonEpoch.isSome = true
  keeps : losesRow texts.labels turns event parser = false → ∀ worker : ArchiveWorker,
    worker.pending = parser.pendingLine → worker.epochChanged batch = true →
    batch.pendingCommitted = true
  loses : losesRow texts.labels turns event parser = true → ∀ worker : ArchiveWorker,
    worker.pending = parser.pendingLine → worker.epochChanged batch = true ∧
      batch.pendingCommitted = false ∧ batch.completed = []
  joins : ∃ rest, batch.completed = flushedLines texts.labels turns event parser ++ rest ∧
    (parser.flushesFirst event = true →
      Joins parser.terminal.continuesPrevious (flushedLines texts.labels turns event parser) false ∧
      Joins false rest parser'.terminal.continuesPrevious) ∧
    (parser.flushesFirst event = false →
      Joins parser.terminal.continuesPrevious rest parser'.terminal.continuesPrevious)

theorem not_losesRow_of_none (hdirection : event.direction = .none) :
    losesRow texts.labels turns event parser = false := by
  simp [losesRow, hdirection]

/-- A boundary of the terminal. -/
theorem pushed_boundary (h : Known parser) (hdirection : event.direction = .none)
    (hboundary : terminalBoundary event.kind = true)
    (hrun : (pushEvent texts.labels turns event).run.run parser = (.ok batch, parser')) :
    Pushed texts turns event parser batch parser' := by
  obtain ⟨identity, hidentified⟩ := h.identified
  have hflushes : parser.flushesFirst event = true := by simp [flushesFirst, hdirection, hboundary]
  have hends : Ends (pushEvent texts.labels turns event) parser
      (fun result next => result = batch ∧ next = parser') (fun _ _ => False) :=
    .of_run hrun ⟨rfl, rfl⟩
  unfold pushEvent at hends
  rw [ends_bind, ends_get, if_pos hdirection, if_pos hboundary, ends_bind] at hends
  obtain ⟨lines, flushed, hflush, hbatch, rfl⟩ := hends.returns
  have hempty := (ends_flush turns hidentified).run hflush
  have hlines : flushedLines texts.labels turns event parser = lines := by
    simp [flushedLines, hflushes, hflush]
  have hlost : losesRow texts.labels turns event parser = false := not_losesRow_of_none hdirection
  rw [← hbatch]
  refine ⟨.of_empty hempty.context hempty.candidate, (pendingLine_of_empty hempty.context).symm,
    ?_, ?_, ?_, ?_⟩
  · intro line hline
    rcases List.mem_append.mp hline with hline | hline
    · rw [(hempty.streamed line hline).1]
      rfl
    · exact (eventToLines_separate texts event line hline).2
  · intro _ worker hpending hchanged
    unfold ArchiveWorker.epochChanged at hchanged
    rw [hpending] at hchanged
    cases hold : parser.pendingLine with
    | none => simp [hold] at hchanged
    | some line => rfl
  · intro hloses
    rw [hlost] at hloses
    cases hloses
  · refine ⟨texts.labels.eventToLines event, by rw [hlines], fun _ => ?_, fun hfalse => ?_⟩
    · rw [hlines, hempty.terminal]
      exact ⟨hempty.joins,
        .of_separate (fun line hline => (eventToLines_separate texts event line hline).1)⟩
    · rw [hflushes] at hfalse
      cases hfalse

/-- An event which does not move the cursor of the terminal. -/
theorem pushed_annotation (h : Known parser) (hdirection : event.direction = .none)
    (hboundary : ¬ terminalBoundary event.kind = true)
    (hrun : (pushEvent texts.labels turns event).run.run parser = (.ok batch, parser')) :
    Pushed texts turns event parser batch parser' := by
  have hflushes : parser.flushesFirst event = false := by simp [flushesFirst, hdirection, hboundary]
  have hends : Ends (pushEvent texts.labels turns event) parser
      (fun result next => result = batch ∧ next = parser') (fun _ _ => False) :=
    .of_run hrun ⟨rfl, rfl⟩
  unfold pushEvent at hends
  rw [ends_bind, ends_get, if_pos hdirection, if_neg hboundary, ends_pure] at hends
  obtain ⟨hbatch, rfl⟩ := hends
  have hseparate : ∀ line ∈ batch.completed,
      line.continuesPrevious = false ∧ line.daemonEpoch.isSome = true := by
    intro line hline
    rw [← hbatch] at hline
    dsimp only at hline
    split_ifs at hline with hvisible
    · exact eventToLines_separate texts event line hline
    · cases hline
  have hpending : batch.pending = parser.pendingLine := by rw [← hbatch]
  have hlost : losesRow texts.labels turns event parser = false := not_losesRow_of_none hdirection
  refine ⟨h, hpending, fun line hline => (hseparate line hline).2, ?_, ?_, ?_⟩
  · intro _ worker hworker hchanged
    unfold ArchiveWorker.epochChanged at hchanged
    rw [hworker, hpending] at hchanged
    cases hold : parser.pendingLine <;> simp [hold] at hchanged
  · intro hloses
    rw [hlost] at hloses
    cases hloses
  · refine ⟨batch.completed, by simp [flushedLines, hflushes], fun htrue => ?_, fun _ => ?_⟩
    · rw [hflushes] at htrue
      cases htrue
    · exact .of_separate (fun line hline => (hseparate line hline).1)

/-- The bytes of an event of the same stream. -/
theorem pushed_bytes (h : Known parser) (hdirection : event.direction ≠ .none)
    (hkind : Streamed event.kind) (hflushes : parser.flushesFirst event = false)
    (hrun : (pushEvent texts.labels turns event).run.run parser = (.ok batch, parser')) :
    Pushed texts turns event parser batch parser' := by
  have hsame : ∀ context ∈ parser.context, context.identity = identityOf event := by
    simpa [flushesFirst, hdirection] using hflushes
  have hidentified := h.identity hsame
  obtain ⟨hshows, hstarted, hpending, hcommitted⟩ :=
    (ends_pushEvent_bytes hdirection hkind hidentified).run hrun
  have hepoch : ∀ old ∈ parser.pendingLine, old.daemonEpoch = some event.daemonEpoch :=
    fun old hold => (epoch_of_pendingLine hidentified hold).1
  have hlost : losesRow texts.labels turns event parser = false := by
    have hnone : ¬ ∃ old ∈ parser.pendingLine, old.daemonEpoch ≠ some event.daemonEpoch := by
      rintro ⟨old, hold, hother⟩
      exact hother (hepoch old hold)
    simp only [losesRow, decide_eq_false hnone, Bool.and_false, Bool.false_and]
  refine ⟨⟨⟨_, hshows.identified⟩, fun hnone => ?_⟩, hpending, ?_, ?_, ?_, ?_⟩
  · rw [hnone] at hstarted
    cases hstarted
  · intro line hline
    rw [(hshows.streamed line hline).1]
    rfl
  · intro _ worker hworker hchanged
    unfold ArchiveWorker.epochChanged at hchanged
    rw [hworker, hpending] at hchanged
    cases hold : parser.pendingLine with
    | none => simp [hold] at hchanged
    | some old =>
        cases hcompleted : batch.completed with
        | cons first rest => simp [hcommitted, hold, hcompleted]
        | nil =>
            cases hnew : parser'.pendingLine with
            | none => simp [hold, hnew, hcompleted] at hchanged
            | some new =>
                have heq := (epoch_of_pendingLine hshows.identified hnew).1
                simp [hold, hnew, hepoch old hold, heq, identityOf] at hchanged
  · intro hloses
    rw [hlost] at hloses
    cases hloses
  · refine ⟨batch.completed, by simp [flushedLines, hflushes], fun htrue => ?_, fun _ => hshows.joins⟩
    rw [hflushes] at htrue
    cases htrue

/-- The bytes of an event of another stream: it is shown by the flushed parser. -/
theorem pushed_changed (h : Known parser) (hdirection : event.direction ≠ .none)
    (hkind : Streamed event.kind) (hflushes : parser.flushesFirst event = true)
    (hrun : (pushEvent texts.labels turns event).run.run parser = (.ok batch, parser')) :
    Pushed texts turns event parser batch parser' := by
  obtain ⟨identity, hidentified⟩ := h.identified
  have hends : Ends (pushEvent texts.labels turns event) parser
      (fun result next => result = batch ∧ next = parser') (fun _ _ => False) :=
    .of_run hrun ⟨rfl, rfl⟩
  rw [ends_pushEvent_flushed hdirection hflushes hidentified] at hends
  obtain ⟨lines, flushed, hflush, hends⟩ := hends.returns
  obtain ⟨rest, last, hrest, hbatch, rfl⟩ := hends.returns
  have hempty := (ends_flush turns hidentified).run hflush
  have hready : Identified (identityOf event) flushed :=
    ⟨by simp [hempty.context], by simp [hempty.candidate]⟩
  obtain ⟨hshows, hstarted, hpending, -⟩ :=
    (ends_pushEvent_bytes hdirection hkind hready).run hrest
  have hlines : flushedLines texts.labels turns event parser = lines := by
    simp [flushedLines, hflushes, hflush]
  have hloses : losesRow texts.labels turns event parser =
      (decide (∃ old ∈ parser.pendingLine, old.daemonEpoch ≠ some event.daemonEpoch) &&
        (lines.isEmpty && (rest.completed.isEmpty && rest.pending.isSome))) := by
    simp [losesRow, hdirection, hflush, hrest]
  have hepoch : ∀ new ∈ rest.pending, new.daemonEpoch = some event.daemonEpoch := by
    intro new hnew
    rw [hpending] at hnew
    exact (epoch_of_pendingLine hshows.identified hnew).1
  have hjoins : Joins false rest.completed last.terminal.continuesPrevious := by
    have hshown := hshows.joins
    rw [hempty.terminal] at hshown
    exact hshown
  rw [← hbatch]
  refine ⟨⟨⟨_, hshows.identified⟩, fun hnone => ?_⟩, hpending, ?_, ?_, ?_, ?_⟩
  · rw [hnone] at hstarted
    cases hstarted
  · intro line hline
    rcases List.mem_append.mp hline with hline | hline
    · rw [(hempty.streamed line hline).1]
      rfl
    · rw [(hshows.streamed line hline).1]
      rfl
  · intro hkeeps worker hworker hchanged
    rw [hloses] at hkeeps
    unfold ArchiveWorker.epochChanged at hchanged
    rw [hworker] at hchanged
    cases hold : parser.pendingLine with
    | none => simp [hold] at hchanged
    | some old =>
        cases hcompleted : lines ++ rest.completed with
        | cons first later => rfl
        | nil =>
            have hboth := List.append_eq_nil_iff.mp hcompleted
            cases hnew : rest.pending with
            | none => simp [hold, hnew, hcompleted] at hchanged
            | some new =>
                have hother : old.daemonEpoch ≠ new.daemonEpoch := by
                  simpa [hold, hnew] using hchanged
                rw [hepoch new hnew] at hother
                simp [hold, hother, hboth.1, hboth.2, hnew] at hkeeps
  · intro hlost worker hworker
    rw [hloses] at hlost
    simp only [Bool.and_eq_true, decide_eq_true_eq, List.isEmpty_iff, Option.isSome_iff_exists]
      at hlost
    obtain ⟨⟨old, hold, hother⟩, hnil, hcompleted, new, hnew⟩ := hlost
    have holdLine : parser.pendingLine = some old := hold
    refine ⟨?_, by simp [hnil, hcompleted], by simp [hnil, hcompleted]⟩
    unfold ArchiveWorker.epochChanged
    simp [hworker, holdLine, hnew, hepoch new hnew, hother]
  · refine ⟨rest.completed, by rw [hlines], fun _ => ?_, fun hfalse => ?_⟩
    · rw [hlines]
      exact ⟨hempty.joins, hjoins⟩
    · rw [hflushes] at hfalse
      cases hfalse

/-- The step lemma for an event. -/
theorem pushed_of_run {pushed : StreamEvent} (h : Known parser)
    (hrun : (pushEvent texts.labels turns pushed.event).run.run parser = (.ok batch, parser')) :
    Pushed texts turns pushed.event parser batch parser' := by
  by_cases hdirection : pushed.event.direction = .none
  · by_cases hboundary : terminalBoundary pushed.event.kind = true
    · exact pushed_boundary h hdirection hboundary hrun
    · exact pushed_annotation h hdirection hboundary hrun
  · cases hflushes : parser.flushesFirst pushed.event with
    | false => exact pushed_bytes h hdirection (pushed.streamed hdirection) hflushes hrun
    | true => exact pushed_changed h hdirection (pushed.streamed hdirection) hflushes hrun

end

/-! ## Runs -/

/-- What every run keeps whose steps lose no row. -/
structure Kept (state : RecordedStream) : Prop where
  known : Known state.parser
  recorded : state.archive.interruptedStream = false
  rows : state.archive.worker.stored = state.shown
  pending : state.archive.worker.pending = state.parser.pendingLine
  breaks : state.archive.worker.breakNextStream = true →
    ∀ line ∈ state.current, ¬ Streamed line.eventKind
  ended : ∀ stream ∈ state.ended, Joins false stream false
  current : Joins false state.current state.parser.terminal.continuesPrevious

section
variable {texts : Texts} {turns : ℕ} {state next : RecordedStream}

theorem Kept.agrees (h : Kept state) : Agrees state where
  rows := h.rows
  pending := h.pending
  joined := by
    intro stream hstream
    rcases List.mem_append.mp hstream with hstream | hstream
    · exact (h.ended stream hstream).joined
    · rw [List.mem_singleton.mp hstream]
      exact (h.current.append h.known.joins_pendingLine).joined

theorem kept_start : Kept start where
  known := .of_empty rfl rfl
  recorded := rfl
  rows := rfl
  pending := rfl
  breaks := by simp [start]
  ended := by simp [start]
  current := .nil

/-- The rows of a batch are shown behind those before it. -/
theorem push_cases {pushed : StreamEvent}
    (hstep : step texts turns (.push pushed) state = some next) :
    ∃ batch, (pushEvent texts.labels turns pushed.event).run.run state.parser =
        (.ok batch, next.parser) ∧
      next.archive = state.archive.append texts batch ∧
      (if state.parser.flushesFirst pushed.event then
        next.ended = state.ended ++
            [state.current ++ flushedLines texts.labels turns pushed.event state.parser] ∧
          next.current =
            batch.completed.drop (flushedLines texts.labels turns pushed.event state.parser).length
      else next.ended = state.ended ∧ next.current = state.current ++ batch.completed) := by
  unfold step at hstep
  dsimp only at hstep
  rcases hrun : (pushEvent texts.labels turns pushed.event).run.run state.parser with
    ⟨_ | batch, parser⟩
  · rw [hrun] at hstep
    cases hstep
  · rw [hrun] at hstep
    cases hstep
    refine ⟨batch, rfl, rfl, ?_⟩
    split_ifs
    · simp
    · simp

theorem shown_push {pushed : StreamEvent} {batch : StreamDisplayBatch}
    (hpushed : Pushed texts turns pushed.event state.parser batch next.parser)
    (hstreams : if state.parser.flushesFirst pushed.event then
        next.ended = state.ended ++
            [state.current ++ flushedLines texts.labels turns pushed.event state.parser] ∧
          next.current =
            batch.completed.drop (flushedLines texts.labels turns pushed.event state.parser).length
      else next.ended = state.ended ∧ next.current = state.current ++ batch.completed) :
    next.shown = state.shown ++ batch.completed := by
  obtain ⟨rest, hcompleted, -, -⟩ := hpushed.joins
  unfold shown
  split_ifs at hstreams
  · rw [hstreams.1, hstreams.2, hcompleted, List.drop_left]
    simp
  · rw [hstreams.1, hstreams.2, List.append_assoc]

/-- Where the worker waits for the next stream, no row of the current one is stored. -/
theorem Kept.closed (h : Kept state) (hbreak : state.archive.worker.breakNextStream = true) :
    state.parser.terminal.continuesPrevious = false := by
  cases hflag : state.parser.terminal.continuesPrevious with
  | false => rfl
  | true =>
      rcases h.current.last hflag with hfalse | ⟨line, hline, hkind⟩
      · cases hfalse
      · exact absurd hkind (h.breaks hbreak line hline)

/-- The worker, after a batch of a parser with which it agrees. -/
theorem Kept.handled {event : TimelineEvent} {batch : StreamDisplayBatch}
    {parser : TerminalStreamParser} (h : Kept state)
    (hpushed : Pushed texts turns event state.parser batch parser) :
    (state.archive.append texts batch).worker =
      { rows := state.archive.worker.rows ++
          state.archive.worker.sealedRows texts batch ++ batch.completed
        pending := parser.pendingLine
        breakNextStream := state.archive.worker.breakNextStream &&
          !batch.completed.any (fun line => decide (Streamed line.eventKind)) } := by
  have hall : state.archive.worker.breakNextStream = true →
      Joins false batch.completed parser.terminal.continuesPrevious := by
    intro hbreak
    have hclosed := h.closed hbreak
    obtain ⟨rest, hcompleted, hflushes, hsame⟩ := hpushed.joins
    rw [hcompleted]
    cases hflush : state.parser.flushesFirst event with
    | true =>
        obtain ⟨hfirst, hrest⟩ := hflushes hflush
        rw [hclosed] at hfirst
        exact hfirst.append hrest
    | false =>
        have hrest := hsame hflush
        rw [hclosed] at hrest
        have hnone : flushedLines texts.labels turns event state.parser = [] := by
          simp [flushedLines, hflush]
        rw [hnone, List.nil_append]
        exact hrest
  have hpending : state.archive.worker.breakNextStream = true →
      ¬ batch.completed.any (fun line => decide (Streamed line.eventKind)) = true →
      ∀ line ∈ batch.pending, line.continuesPrevious = false := by
    intro hbreak hnone line hline
    obtain ⟨identity, hidentified⟩ := hpushed.known.identified
    rw [hpushed.pending] at hline
    rw [(epoch_of_pendingLine hidentified hline).2]
    cases hflag : parser.terminal.continuesPrevious with
    | false => rfl
    | true =>
        rcases (hall hbreak).last hflag with hfalse | ⟨streamed, hmem, hkind⟩
        · cases hfalse
        · exact absurd (List.any_eq_true.mpr ⟨streamed, hmem, by simpa using hkind⟩) hnone
  have hhandled := state.archive.worker.handle_append texts batch
    (fun hbreak line hline => (hall hbreak).find hline) hpending
  unfold SessionArchive.append
  rw [h.recorded, hhandled, hpushed.pending]

theorem Kept.push {pushed : StreamEvent} (h : Kept state)
    (hkeeps : losesRow texts.labels turns pushed.event state.parser = false)
    (hstep : step texts turns (.push pushed) state = some next) : Kept next := by
  obtain ⟨batch, hrun, harchive, hstreams⟩ := push_cases hstep
  have hpushed := pushed_of_run h.known hrun
  have hhandled := h.handled hpushed
  rw [← harchive] at hhandled
  have hshown := shown_push hpushed hstreams
  obtain ⟨rest, hcompleted, hflushes, hsame⟩ := hpushed.joins
  have hstored : next.archive.worker.stored = state.archive.worker.stored ++ batch.completed := by
    have hsealed := state.archive.worker.stored_sealedRows texts batch
      (hpushed.keeps hkeeps _ h.pending)
    have hown : batch.completed.filter (fun line => line.daemonEpoch.isSome) = batch.completed :=
      List.filter_eq_self.mpr hpushed.identified
    rw [hhandled]
    simp only [ArchiveWorker.stored, List.filter_append, hsealed, hown, List.append_nil]
  have hbreaks : next.archive.worker.breakNextStream = true →
      state.archive.worker.breakNextStream = true ∧
        ∀ line ∈ batch.completed, ¬ Streamed line.eventKind := by
    rw [hhandled]
    simp
  have hrecorded : next.archive.interruptedStream = false := by rw [harchive]; rfl
  have hpending : next.archive.worker.pending = next.parser.pendingLine := by rw [hhandled]
  cases hflush : state.parser.flushesFirst pushed.event with
  | true =>
      obtain ⟨hfirst, hrest⟩ := hflushes hflush
      rw [hflush, if_pos rfl] at hstreams
      have hcurrent : next.current = rest := by
        rw [hstreams.2, hcompleted, List.drop_left]
      refine ⟨hpushed.known, hrecorded, ?_, hpending, fun hbreak line hline => ?_, ?_, ?_⟩
      · rw [hstored, h.rows, hshown]
      · rw [hcurrent] at hline
        exact (hbreaks hbreak).2 line (hcompleted ▸ List.mem_append_right _ hline)
      · rw [hstreams.1]
        intro stream hstream
        rcases List.mem_append.mp hstream with hstream | hstream
        · exact h.ended stream hstream
        · rw [List.mem_singleton.mp hstream]
          exact h.current.append hfirst
      · rw [hcurrent]
        exact hrest
  | false =>
      rw [hflush, if_neg (by simp)] at hstreams
      have hnone : flushedLines texts.labels turns pushed.event state.parser = [] := by
        simp [flushedLines, hflush]
      rw [hnone, List.nil_append] at hcompleted
      refine ⟨hpushed.known, hrecorded, ?_, hpending, fun hbreak line hline => ?_, ?_, ?_⟩
      · rw [hstored, h.rows, hshown]
      · rw [hstreams.2] at hline
        rcases List.mem_append.mp hline with hline | hline
        · exact h.breaks (hbreaks hbreak).1 line hline
        · exact (hbreaks hbreak).2 line hline
      · rw [hstreams.1]
        exact h.ended
      · rw [hstreams.2, hcompleted]
        exact h.current.append (hsame hflush)

/-- A row which would be lost is stored by the worker, although the parser drops it. -/
theorem Kept.loses {pushed : StreamEvent} (h : Kept state)
    (hloses : losesRow texts.labels turns pushed.event state.parser = true)
    (hstep : step texts turns (.push pushed) state = some next) : ¬ Agrees next := by
  obtain ⟨batch, hrun, harchive, hstreams⟩ := push_cases hstep
  have hpushed := pushed_of_run h.known hrun
  have hhandled := h.handled hpushed
  rw [← harchive] at hhandled
  obtain ⟨hchanged, hcommitted, hcompleted⟩ := hpushed.loses hloses _ h.pending
  have hshown := shown_push hpushed hstreams
  rw [hcompleted, List.append_nil] at hshown
  intro hagrees
  have hrows : next.archive.worker.stored = state.archive.worker.stored := by
    rw [h.rows, ← hshown]
    exact hagrees.rows
  rw [hhandled] at hrows
  obtain ⟨identity, hidentified⟩ := h.known.identified
  cases hold : state.parser.pendingLine with
  | none => simp [ArchiveWorker.epochChanged, h.pending, hold] at hchanged
  | some old =>
      have hepoch := (epoch_of_pendingLine hidentified hold).1
      simp [ArchiveWorker.stored, ArchiveWorker.sealedRows, hchanged, hcommitted, hcompleted,
        h.pending, hold, hepoch] at hrows

/-! ## Cuts -/

/-- What recording a cut makes of an archive. -/
theorem recorded_cut (texts : Texts) (cut : Cut) (archive : SessionArchive)
    (hepoch : ∀ line ∈ archive.worker.pending, line.daemonEpoch.isSome = true) :
    (record texts archive cut).interruptedStream = archive.interruptedStream ∧
      (record texts archive cut).worker.stored =
        archive.worker.stored ++ archive.worker.pending.toList ∧
      (record texts archive cut).worker.pending = none := by
  have hgap (reason : List Char) : (gapLine texts 0 reason).daemonEpoch.isSome = false := rfl
  cases hpending : archive.worker.pending with
  | none =>
      cases cut <;>
        simp [record, SessionArchive.recordBoundary, SessionArchive.recordGap,
          ArchiveWorker.handle, ArchiveWorker.sealPending, hpending, ArchiveWorker.stored,
          ArchiveWorker.writeRow, hgap]
  | some line =>
      have hline := hepoch line hpending
      cases cut <;>
        simp [record, SessionArchive.recordBoundary, SessionArchive.recordGap,
          ArchiveWorker.handle, ArchiveWorker.sealPending, hpending, ArchiveWorker.stored,
          ArchiveWorker.writeRow, hgap, hline]

/-- A whole list of them: the pending row is stored once. -/
theorem recorded_cuts (texts : Texts) (cuts : List Cut) (archive : SessionArchive)
    (hpending : archive.worker.pending = none) :
    (cuts.foldl (record texts) archive).interruptedStream = archive.interruptedStream ∧
      (cuts.foldl (record texts) archive).worker.stored = archive.worker.stored ∧
      (cuts.foldl (record texts) archive).worker.pending = none := by
  induction cuts generalizing archive with
  | nil => exact ⟨rfl, rfl, hpending⟩
  | cons cut rest ih =>
      have hcut := recorded_cut texts cut archive (by simp [hpending])
      rw [hpending, Option.toList_none, List.append_nil] at hcut
      obtain ⟨hinterrupted, hstored, hnone⟩ := ih _ hcut.2.2
      exact ⟨hinterrupted.trans hcut.1, hstored.trans hcut.2.1, hnone⟩

theorem Kept.isSome_pending (h : Kept state) :
    ∀ line ∈ state.archive.worker.pending, line.daemonEpoch.isSome = true := by
  intro line hline
  obtain ⟨identity, hidentified⟩ := h.known.identified
  rw [h.pending] at hline
  rw [(epoch_of_pendingLine hidentified hline).1]
  rfl

theorem Kept.reset {first : Cut} {more : List Cut} (h : Kept state)
    (hstep : step texts turns (.reset first more) state = some next) : Kept next := by
  cases hstep
  have hfirst := recorded_cut texts first state.archive h.isSome_pending
  obtain ⟨hinterrupted, hstored, hnone⟩ := recorded_cuts texts more _ hfirst.2.2
  refine ⟨.of_empty rfl rfl, ?_, ?_, ?_, ?_, ?_, ?_⟩
  · exact (hinterrupted.trans hfirst.1).trans h.recorded
  · have hall := hstored.trans hfirst.2.1
    rw [h.rows, h.pending] at hall
    simpa [shown] using hall
  · exact hnone
  · simp
  · intro stream hstream
    rcases List.mem_append.mp hstream with hstream | hstream
    · exact h.ended stream hstream
    · rw [List.mem_singleton.mp hstream]
      exact h.current.append h.known.joins_pendingLine
  · exact .nil

theorem Kept.captureGap {reason : List Char} (h : Kept state)
    (hkeeps : state.parser.pendingLine = none)
    (hstep : step texts turns (.captureGap reason) state = some next) : Kept next := by
  cases hstep
  have hcut := recorded_cut texts (.gap reason) state.archive h.isSome_pending
  have hworker : state.archive.worker.pending = none := h.pending.trans hkeeps
  rw [hworker, Option.toList_none, List.append_nil] at hcut
  refine ⟨h.known, hcut.1.trans h.recorded, hcut.2.1.trans h.rows, hcut.2.2.trans hkeeps.symm,
    fun hbreak => h.breaks ?_, h.ended, h.current⟩
  simpa [SessionArchive.recordGap, ArchiveWorker.handle, ArchiveWorker.sealPending, hworker,
    ArchiveWorker.writeRow] using hbreak

/-- A pending row is stored when the gap is reported, and goes on in the parser. -/
theorem Kept.gap_loses {reason : List Char} (h : Kept state)
    (hpending : state.parser.pendingLine ≠ none)
    (hstep : step texts turns (.captureGap reason) state = some next) : ¬ Agrees next := by
  cases hstep
  have hcut := recorded_cut texts (.gap reason) state.archive h.isSome_pending
  intro hagrees
  have hparser : (record texts state.archive (.gap reason)).worker.pending =
      state.parser.pendingLine := hagrees.pending
  exact hpending (hparser.symm.trans hcut.2.2)

theorem Kept.setEchoReconciliation {enabled : Bool} (h : Kept state)
    (hstep : step texts turns (.setEchoReconciliation enabled) state = some next) :
    Kept next := by
  cases hstep
  have hsame : (state.parser.setEchoReconciliation enabled).context = state.parser.context ∧
      (state.parser.setEchoReconciliation enabled).echoCandidateContext =
        state.parser.echoCandidateContext ∧
      (state.parser.setEchoReconciliation enabled).terminal = state.parser.terminal := by
    unfold TerminalStreamParser.setEchoReconciliation
    split_ifs <;> exact ⟨rfl, rfl, rfl⟩
  obtain ⟨hcontext, hcandidate, hterminal⟩ := hsame
  have hpending : (state.parser.setEchoReconciliation enabled).pendingLine =
      state.parser.pendingLine := by
    unfold pendingLine
    rw [hcontext, hterminal]
  obtain ⟨identity, hidentified⟩ := h.known.identified
  refine ⟨⟨⟨identity, ?_, ?_⟩, ?_⟩, h.recorded, h.rows, h.pending.trans hpending.symm, h.breaks,
    h.ended, ?_⟩
  · rw [hcontext]
    exact hidentified.context
  · rw [hcandidate]
    exact hidentified.candidate
  · rw [hcontext, hcandidate]
    exact h.known.empty
  · rw [hterminal]
    exact h.current

/-- The step lemma: a step keeps the agreement exactly when it loses no row. -/
theorem Kept.step {act : ArchiveAct} (h : Kept state)
    (hstep : RecordedStream.step texts turns act state = some next) :
    if keepsRow texts turns act state then Kept next else ¬ Agrees next := by
  cases act with
  | push pushed =>
      cases hloses : losesRow texts.labels turns pushed.event state.parser with
      | false => simpa [keepsRow, hloses] using h.push hloses hstep
      | true => simpa [keepsRow, hloses] using h.loses hloses hstep
  | reset first more => exact h.reset hstep
  | captureGap reason =>
      cases hpending : state.parser.pendingLine with
      | none => simpa [keepsRow, hpending] using h.captureGap hpending hstep
      | some line => simpa [keepsRow, hpending] using h.gap_loses (by simp [hpending]) hstep
  | setEchoReconciliation enabled => exact h.setEchoReconciliation hstep

/-- Empty labels, and one line for every event which is announced. -/
def plainTexts : Texts where
  sourceLabel _ := ""
  eventTexts _ := [[]]
  gapLabel := ""

def streamed (epoch seq : ℕ) (kind : EventKind) (direction : Direction) (data : Bytes) :
    TimelineEvent where
  port := "uart"
  daemonEpoch := epoch
  seq := seq
  generation := 1
  wallTimeNs := 0
  monotonicTimeNs := 0
  kind := kind
  direction := direction
  actor := none
  runId := none
  operationId := none
  streamOffsetStart := none
  streamOffsetEnd := none
  data := data
  metadata := []
  durable := true

def received (epoch seq : ℕ) (data : Bytes) : ArchiveAct :=
  .push ⟨streamed epoch seq .rx .rx data, fun _ => .inl rfl⟩

def sent (epoch seq : ℕ) (data : Bytes) : ArchiveAct :=
  .push ⟨streamed epoch seq .tx .tx data, fun _ => .inr rfl⟩

/-- A command erases the row, inserts a blank and ends in an escape; of its echo only the
erasing arrives before the daemon restarts. -/
def erasedByEcho : List ArchiveAct :=
  [.setEchoReconciliation true, sent 1 1 [0x1b, 0x5b, 0x32, 0x4b, 0x1b, 0x5b, 0x40, 0x1b],
    received 1 2 [0x1b, 0x5b, 0x32, 0x4b], received 2 1 [0x61]]

/-- A letter is pending when the daemon reports a gap. -/
def gapInRow : List ArchiveAct :=
  [received 1 1 [0x61], .captureGap [],
    .push ⟨streamed 1 3 .gap .none [], fun hdirection => absurd rfl hdirection⟩]

/-- A command of which an echo is held back when the daemon restarts. -/
def partlyEchoed : List ArchiveAct :=
  [.setEchoReconciliation true, sent 1 1 [0x61, 0x62], received 1 2 [0x61], received 2 1 [0x63],
    .reset (.gap []) [.boundary], received 2 3 [0x64]]

example : (follow (RecordedStream.step plainTexts 40) partlyEchoed start).isSome := by
  decide +kernel

end

end RecordedStream

end SerialPlatform.Display
