import SerialPlatform.TerminalSplits
import SerialPlatform.TerminalStream

/-!
# The rows of a batch

While the identity of a port's stream stays the same, all its rows carry that identity, and
a row continues another one only behind a row of the same stream.  An event of
another identity first flushes the parser, which leaves it empty.
-/

namespace SerialPlatform.Display

open TerminalText FallibleState

/-- The kinds of the events which carry bytes. -/
def Streamed (kind : EventKind) : Prop := kind = .rx ∨ kind = .tx

instance (kind : EventKind) : Decidable (Streamed kind) :=
  inferInstanceAs (Decidable (_ ∨ _))

namespace TerminalStreamParser

/-- The contexts of the parser belong to a stream of this identity. -/
structure Identified (identity : StreamIdentity) (parser : TerminalStreamParser) : Prop where
  context : ∀ context ∈ parser.context, context.identity = identity ∧ Streamed context.kind
  candidate : ∀ context ∈ parser.echoCandidateContext,
    context.identity = identity ∧ Streamed context.kind

/-- What showing bytes of this stream makes of the parser. -/
structure Shows (identity : StreamIdentity) (parser : TerminalStreamParser)
    (lines : List DisplayLine) (parser' : TerminalStreamParser) : Prop where
  identified : Identified identity parser'
  streamed : ∀ line ∈ lines,
    line.daemonEpoch = some identity.daemonEpoch ∧ Streamed line.eventKind
  first : ∀ line ∈ lines.head?, line.continuesPrevious = true →
    parser.terminal.continuesPrevious = true
  unfinished : parser'.terminal.continuesPrevious = true →
    lines ≠ [] ∨ parser.terminal.continuesPrevious = true
  started : parser.context.isSome = true → parser'.context.isSome = true

namespace Shows

variable {identity : StreamIdentity} {parser parser' parser'' : TerminalStreamParser}
variable {lines lines' : List DisplayLine}

theorem none (h : Identified identity parser') (hterminal : parser'.terminal = parser.terminal)
    (hstarted : parser.context.isSome = true → parser'.context.isSome = true) :
    Shows identity parser [] parser' where
  identified := h
  streamed := by simp
  first := by simp
  unfinished := by
    rw [hterminal]
    exact .inr
  started := hstarted

theorem append (h : Shows identity parser lines parser')
    (h' : Shows identity parser' lines' parser'') :
    Shows identity parser (lines ++ lines') parser'' where
  identified := h'.identified
  streamed := by
    intro line hline
    rcases List.mem_append.mp hline with hline | hline
    · exact h.streamed line hline
    · exact h'.streamed line hline
  first := by
    intro line hline hflag
    cases lines with
    | cons shown rest => exact h.first line hline hflag
    | nil => simpa using h.unfinished (h'.first line hline hflag)
  unfinished := by
    intro hflag
    rcases h'.unfinished hflag with hsome | hbefore
    · exact .inl (fun hnil => hsome (List.append_eq_nil_iff.mp hnil).2)
    · rcases h.unfinished hbefore with hsome | hstart
      · exact .inl (fun hnil => hsome (List.append_eq_nil_iff.mp hnil).1)
      · exact .inr hstart
  started := fun hcontext => h'.started (h.started hcontext)

/-- A step on the other fields of the parser. -/
theorem other (h : Shows identity parser lines parser') (h' : Identified identity parser'')
    (hterminal : parser''.terminal = parser'.terminal)
    (hstarted : parser'.context.isSome = true → parser''.context.isSome = true) :
    Shows identity parser lines parser'' := by
  have hboth := h.append (Shows.none h' hterminal hstarted)
  rw [List.append_nil] at hboth
  exact hboth

end Shows

/-- From a parser of this stream the act shows rows of this stream. -/
def Emits (identity : StreamIdentity) (act : Act (List DisplayLine)) : Prop :=
  ∀ parser, Identified identity parser →
    Ends act parser (fun lines parser' => Shows identity parser lines parser') (fun _ _ => True)

section
variable {identity : StreamIdentity} {turns : ℕ} {incoming : LineContext}

theorem Emits.of_nothing : Emits identity (pure []) :=
  fun _ h => Shows.none h rfl id

theorem Emits.append {act act' : Act (List DisplayLine)} (h : Emits identity act)
    (h' : Emits identity act') :
    Emits identity (do
      let lines ← act
      let later ← act'
      pure (lines ++ later)) := by
  intro parser hidentified
  refine (h parser hidentified).bind (fun lines parser' hshown => ?_) (fun _ _ _ => trivial)
  refine (h' parser' hshown.identified).bind (fun later parser'' hlater => ?_)
    (fun _ _ _ => trivial)
  exact hshown.append hlater

/-- What the terminal finished, before it is shown. -/
structure Finishes (parser : TerminalStreamParser) (rows : List ProjectedRow)
    (parser' : TerminalStreamParser) : Prop where
  context : parser'.context = parser.context
  candidate : parser'.echoCandidateContext = parser.echoCandidateContext
  first : ∀ row ∈ rows.head?, row.continuesPrevious = true →
    parser.terminal.continuesPrevious = true
  unfinished : parser'.terminal.continuesPrevious = true →
    rows ≠ [] ∨ parser.terminal.continuesPrevious = true

theorem Finishes.of_splits {parser parser' : TerminalStreamParser} {terminal : TerminalText}
    (hcontext : parser'.context = parser.context)
    (hcandidate : parser'.echoCandidateContext = parser.echoCandidateContext)
    (hterminal : parser'.terminal = terminal)
    (hsplits : Splits { parser.terminal with rows := [] } terminal) :
    Finishes parser terminal.rows parser' := by
  obtain ⟨finished, hrows, hfirst, hopen⟩ := hsplits
  have heq : terminal.rows = finished := hrows
  rw [heq]
  refine ⟨hcontext, hcandidate, hfirst, ?_⟩
  rw [hterminal]
  exact hopen

theorem ends_consumeByte (byte : UInt8) (parser : TerminalStreamParser) :
    Ends (consumeByte turns byte) parser (Finishes parser) (fun _ _ => True) := by
  unfold consumeByte
  simp only [ends_bind, ends_get, ends_modify]
  cases hconsume : TerminalText.consume byte { parser.terminal with rows := [] } turns with
  | none => trivial
  | some terminal =>
      simp only [ends_bind, ends_modify, ends_pure]
      exact .of_splits rfl rfl rfl (splits_consume hconsume)

theorem ends_finishRows (parser : TerminalStreamParser) :
    Ends (finishRows turns) parser (Finishes parser) (fun _ _ => True) := by
  unfold finishRows
  simp only [ends_bind, ends_get]
  cases hfinish : TerminalText.finishInput { parser.terminal with rows := [] } turns with
  | none => trivial
  | some terminal =>
      simp only [ends_bind, ends_modify, ends_pure]
      exact .of_splits rfl rfl rfl (splits_finishInput hfinish)

/-- The rows are lines of a context of this stream. -/
theorem Finishes.shows {parser parser' parser'' : TerminalStreamParser} {rows : List ProjectedRow}
    {context : LineContext} (h : Finishes parser rows parser')
    (hcontext : context.identity = identity ∧ Streamed context.kind)
    (hidentified : Identified identity parser'') (hterminal : parser''.terminal = parser'.terminal)
    (hstarted : parser'.context.isSome = true → parser''.context.isSome = true) :
    Shows identity parser (rows.map context.displayLine) parser'' where
  identified := hidentified
  streamed := by
    intro line hline
    obtain ⟨row, -, rfl⟩ := List.mem_map.mp hline
    exact ⟨by rw [← hcontext.1]; rfl, hcontext.2⟩
  first := by
    intro line hline hflag
    rw [List.head?_map] at hline
    obtain ⟨row, hrow, rfl⟩ := Option.map_eq_some_iff.mp hline
    exact h.first row hrow hflag
  unfinished := by
    rw [hterminal]
    intro hflag
    rcases h.unfinished hflag with hsome | hstart
    · exact .inl (fun hnil => hsome (List.map_eq_nil_iff.mp hnil))
    · exact .inr hstart
  started := by
    rw [← h.context]
    exact hstarted

theorem Identified.of_finishes {parser parser' : TerminalStreamParser} {rows : List ProjectedRow}
    (h : Identified identity parser) (hfinishes : Finishes parser rows parser') :
    Identified identity parser' := by
  refine ⟨?_, ?_⟩
  · rw [hfinishes.context]
    exact h.context
  · rw [hfinishes.candidate]
    exact h.candidate

/-- The incoming context follows the current one. -/
theorem Identified.follow {parser : TerminalStreamParser} (h : Identified identity parser)
    (hincoming : incoming.identity = identity ∧ Streamed incoming.kind) :
    Identified identity { parser with context := some incoming } := by
  refine ⟨fun context hcontext => ?_, h.candidate⟩
  cases hcontext
  exact hincoming

theorem ends_showRows {parser parser' : TerminalStreamParser} {rows : List ProjectedRow}
    (hincoming : incoming.identity = identity ∧ Streamed incoming.kind)
    (h : Identified identity parser') (hfinishes : Finishes parser rows parser') :
    Ends (showRows incoming rows) parser' (fun lines parser'' => Shows identity parser lines parser'')
      (fun _ _ => True) := by
  unfold showRows
  simp only [ends_bind, ends_get, ends_modify, ends_pure]
  refine hfinishes.shows ?_ (h.follow hincoming) rfl (fun _ => rfl)
  cases hcontext : parser'.context with
  | none => exact hincoming
  | some context => exact h.context context hcontext

theorem emits_commitPendingRow (hincoming : incoming.identity = identity ∧ Streamed incoming.kind) :
    Emits identity (commitPendingRow turns incoming) := by
  intro parser h
  unfold commitPendingRow
  rw [ends_bind, ends_modify]
  have hstart : Identified identity { parser with txLineEndPending := false } :=
    ⟨h.context, h.candidate⟩
  refine (ends_consumeByte _ _).bind (fun rows parser' hfinishes => ?_) (fun _ _ _ => trivial)
  exact ends_showRows hincoming (hstart.of_finishes hfinishes)
    ⟨hfinishes.context, hfinishes.candidate, hfinishes.first, hfinishes.unfinished⟩

theorem emits_feedVisibleByte (byte : UInt8)
    (hincoming : incoming.identity = identity ∧ Streamed incoming.kind) :
    Emits identity (feedVisibleByte turns incoming byte) := by
  intro parser h
  unfold feedVisibleByte
  rw [ends_bind, ends_get]
  have hcommitted : Emits identity
      (if parser.txLineEndPending ∧ byte ≠ 0x0d ∧ byte ≠ 0x0a then commitPendingRow turns incoming
      else pure []) := by
    split_ifs
    · exact emits_commitPendingRow hincoming
    · exact .of_nothing
  refine (hcommitted parser h).bind (fun committed parser' hshown => ?_) (fun _ _ _ => trivial)
  refine (ends_consumeByte byte parser').bind (fun rows parser'' hfinishes => ?_)
    (fun _ _ _ => trivial)
  rw [ends_bind, ends_modify]
  have hidentified := hshown.identified.of_finishes hfinishes
  by_cases hrows : rows = []
  · rw [if_pos hrows, ends_pure]
    have hsame : Shows identity parser' [] parser'' := by
      have hnone := hfinishes.shows hincoming hidentified rfl id
      rw [hrows] at hnone
      exact hnone
    have hall := hshown.append hsame
    rw [List.append_nil] at hall
    exact hall.other ⟨hidentified.context, hidentified.candidate⟩ rfl id
  · rw [if_neg hrows]
    have hready (pending : Bool) : Ends (showRows incoming rows)
        { parser'' with txLineEndPending := pending }
        (fun lines next => Shows identity parser' lines next) (fun _ _ => True) :=
      ends_showRows hincoming ⟨hidentified.context, hidentified.candidate⟩
        ⟨hfinishes.context, hfinishes.candidate, hfinishes.first, hfinishes.unfinished⟩
    refine (hready _).bind (fun lines next hlines => ?_) (fun _ _ _ => trivial)
    exact hshown.append hlines

theorem emits_feedVisibleBytes (bytes : Bytes)
    (hincoming : incoming.identity = identity ∧ Streamed incoming.kind) :
    Emits identity (feedVisibleBytes turns incoming bytes) := by
  induction bytes with
  | nil => exact .of_nothing
  | cons byte rest ih => exact (emits_feedVisibleByte byte hincoming).append ih

theorem emits_replayBufferedRx (replay : Bytes)
    (hincoming : incoming.identity = identity ∧ Streamed incoming.kind) :
    Emits identity (replayBufferedRx turns replay incoming) := by
  intro parser h
  unfold replayBufferedRx
  rw [ends_bind, ends_get, ends_bind, ends_modify]
  have hcontext : (parser.echoCandidateContext.getD incoming).identity = identity ∧
      Streamed (parser.echoCandidateContext.getD incoming).kind := by
    cases hcandidate : parser.echoCandidateContext with
    | none => exact hincoming
    | some context => exact h.candidate context hcandidate
  have hstart : Identified identity { parser with echoCandidateContext := none } :=
    ⟨h.context, by simp⟩
  have hemits : Emits identity (do
      let committed ←
        (if (∃ current ∈ parser.context, current.direction = .tx) ∧
            (parser.echoCandidateContext.getD incoming).direction = .rx ∧
            parser.terminal.pendingText.isSome then
          commitPendingRow turns (parser.echoCandidateContext.getD incoming)
        else pure [])
      let lines ← feedVisibleBytes turns (parser.echoCandidateContext.getD incoming) replay
      pure (committed ++ lines)) := by
    refine Emits.append ?_ (emits_feedVisibleBytes replay hcontext)
    split_ifs
    · exact emits_commitPendingRow hcontext
    · exact .of_nothing
  refine (hemits _ hstart).mono (fun lines parser' hshown => ?_) (fun _ _ _ => trivial)
  exact ⟨hshown.identified, hshown.streamed, hshown.first, hshown.unfinished, hshown.started⟩

theorem emits_replayEchoCandidate : Emits identity (replayEchoCandidate turns) := by
  intro parser h
  unfold replayEchoCandidate
  rw [ends_bind, ends_get, ends_bind, ends_modify]
  have hstart : Identified identity { parser with abandonedRx := [], echoCandidate := [] } :=
    ⟨h.context, h.candidate⟩
  have hnone : Shows identity parser [] { parser with abandonedRx := [], echoCandidate := [] } :=
    Shows.none hstart rfl id
  split
  · exact hnone
  · exact hnone
  · rename_i fallback hfallback _
    refine (emits_replayBufferedRx _ (h.context fallback hfallback) _ hstart).mono
      (fun lines parser' hshown => ?_) (fun _ _ _ => trivial)
    exact ⟨hshown.identified, hshown.streamed, hshown.first, hshown.unfinished, hshown.started⟩

/-! ## Flush -/

/-- The lines which a flush returns, and the empty parser. -/
structure Flushes (identity : StreamIdentity) (parser : TerminalStreamParser)
    (lines : List DisplayLine) (parser' : TerminalStreamParser) : Prop where
  context : parser'.context = none
  candidate : parser'.echoCandidateContext = none
  terminal : parser'.terminal = TerminalText.default
  streamed : ∀ line ∈ lines,
    line.daemonEpoch = some identity.daemonEpoch ∧ Streamed line.eventKind
  first : ∀ line ∈ lines.head?, line.continuesPrevious = true →
    parser.terminal.continuesPrevious = true

theorem ends_flush (turns : ℕ) {parser : TerminalStreamParser} (h : Identified identity parser) :
    Ends (flush turns) parser (Flushes identity parser) (fun _ _ => True) := by
  unfold flush
  refine (emits_replayEchoCandidate parser h).bind (fun lines parser' hshown => ?_)
    (fun _ _ _ => trivial)
  refine (ends_finishRows parser').bind (fun rows parser'' hfinishes => ?_) (fun _ _ _ => trivial)
  rw [ends_bind, ends_get, ends_bind, ends_modify]
  have hidentified := hshown.identified.of_finishes hfinishes
  cases hcontext : parser''.context with
  | none => exact ⟨rfl, rfl, rfl, hshown.streamed, hshown.first⟩
  | some context =>
      have hsame := hidentified.context context hcontext
      have hrows := hshown.append (hfinishes.shows hsame hidentified rfl id)
      have hpending : Shows identity parser''
          (parser''.terminal.takePending.1.toList.map context.displayLine) parser'' := by
        have htaken : ∀ row ∈ parser''.terminal.takePending.1,
            row.continuesPrevious = parser''.terminal.continuesPrevious := by
          intro row hrow
          unfold TerminalText.takePending at hrow
          split at hrow
          · cases hrow
          · cases hrow
            rfl
        refine ⟨hidentified, ?_, ?_, .inr, id⟩
        · intro line hline
          obtain ⟨row, -, rfl⟩ := List.mem_map.mp hline
          exact ⟨by rw [← hsame.1]; rfl, hsame.2⟩
        · intro line hline hflag
          cases htake : parser''.terminal.takePending.1 with
          | none =>
              rw [htake] at hline
              cases hline
          | some row =>
              rw [htake] at hline
              cases hline
              rw [← htaken row htake]
              exact hflag
      have hall := hrows.append hpending
      exact ⟨rfl, rfl, rfl, hall.streamed, hall.first⟩

/-! ## Events -/

theorem Identified.reconcileRxByte {parser : TerminalStreamParser} (byte : UInt8)
    (h : Identified identity parser)
    (hincoming : incoming.identity = identity ∧ Streamed incoming.kind) :
    Identified identity (parser.reconcileRxByte byte incoming).2 ∧
      (parser.reconcileRxByte byte incoming).2.terminal = parser.terminal ∧
      (parser.reconcileRxByte byte incoming).2.context = parser.context := by
  unfold TerminalStreamParser.reconcileRxByte
  split
  · exact ⟨h, rfl, rfl⟩
  split
  · exact ⟨⟨h.context, h.candidate⟩, rfl, rfl⟩
  split
  · exact ⟨⟨h.context, h.candidate⟩, rfl, rfl⟩
  · simp only
    split
    · exact ⟨⟨h.context, by simp⟩, rfl, rfl⟩
    · refine ⟨⟨h.context, fun context hcontext => ?_⟩, rfl, rfl⟩
      cases hcontext
      exact hincoming
    · exact ⟨⟨h.context, by simp⟩, rfl, rfl⟩

theorem emits_projectByte (direction : Direction) (byte : UInt8)
    (hincoming : incoming.identity = identity ∧ Streamed incoming.kind) :
    Emits identity (projectByte turns direction incoming byte) := by
  intro parser h
  unfold projectByte
  rw [ends_ite]
  split_ifs
  · rw [ends_bind, ends_get, ends_bind, ends_modify]
    obtain ⟨hreconciled, hterminal, hcontext⟩ := h.reconcileRxByte byte hincoming
    have hsame : Shows identity parser [] (parser.reconcileRxByte byte incoming).2 :=
      Shows.none hreconciled hterminal (by rw [hcontext]; exact id)
    split
    · rw [ends_bind, ends_modify, ends_pure]
      refine hsame.other ?_ ?_ ?_
      · split_ifs
        · refine ⟨fun context hcontext => ?_, hreconciled.candidate⟩
          obtain ⟨current, hcurrent, rfl⟩ := Option.map_eq_some_iff.mp hcontext
          exact hreconciled.context current hcurrent
        · exact hreconciled
      · split_ifs <;> rfl
      · split_ifs <;> simp
    · refine (emits_feedVisibleBytes _ hincoming _ hreconciled).mono
        (fun lines parser' hshown => ?_) (fun _ _ _ => trivial)
      exact hsame.append hshown
  · exact emits_feedVisibleBytes _ hincoming parser h
  · exact emits_feedVisibleByte byte hincoming parser h

theorem emits_projectBytes (direction : Direction) (bytes : Bytes)
    (hincoming : incoming.identity = identity ∧ Streamed incoming.kind) :
    Emits identity (projectBytes turns direction incoming bytes) := by
  induction bytes with
  | nil => exact .of_nothing
  | cons byte rest ih => exact (emits_projectByte direction byte hincoming).append ih

theorem emits_replayAbandoned (hincoming : incoming.identity = identity ∧ Streamed incoming.kind) :
    Emits identity (replayAbandoned turns incoming) := by
  intro parser h
  unfold replayAbandoned
  rw [ends_bind, ends_get, ends_ite]
  split_ifs
  · exact Shows.none h rfl id
  · rw [ends_bind, ends_modify]
    have hstart : Identified identity { parser with abandonedRx := [] } := ⟨h.context, h.candidate⟩
    refine (emits_replayBufferedRx _ hincoming _ hstart).mono
      (fun lines parser' hshown => ?_) (fun _ _ _ => trivial)
    exact ⟨hshown.identified, hshown.streamed, hshown.first, hshown.unfinished, hshown.started⟩

theorem Identified.adoptContext {parser : TerminalStreamParser} {event : TimelineEvent}
    (h : Identified identity parser)
    (hincoming : incoming.identity = identity ∧ Streamed incoming.kind) :
    Identified identity (parser.adoptContext event incoming) ∧
      (parser.adoptContext event incoming).terminal = parser.terminal ∧
      (parser.adoptContext event incoming).context.isSome = true := by
  unfold TerminalStreamParser.adoptContext
  cases hcontext : parser.context with
  | none => exact ⟨h.follow hincoming, rfl, rfl⟩
  | some current =>
      have hcurrent := h.context current hcontext
      simp only
      split_ifs
      · refine ⟨⟨fun context hcontext => ?_, h.candidate⟩, rfl, rfl⟩
        cases hcontext
        exact ⟨hcurrent.1, hincoming.2⟩
      · refine ⟨⟨fun context hcontext => ?_, h.candidate⟩, rfl, rfl⟩
        cases hcontext
        exact hcurrent
      · exact ⟨h.follow hincoming, rfl, rfl⟩

theorem Identified.expectEcho {parser : TerminalStreamParser} {event : TimelineEvent}
    (h : Identified identity parser) :
    Identified identity (parser.expectEcho event) ∧
      (parser.expectEcho event).terminal = parser.terminal ∧
      (parser.expectEcho event).context = parser.context := by
  unfold TerminalStreamParser.expectEcho
  simp only
  split_ifs <;> exact ⟨⟨h.context, h.candidate⟩, rfl, rfl⟩

end

/-! ## Batches -/

section
variable {labels : Labels} {turns : ℕ} {event : TimelineEvent} {parser : TerminalStreamParser}

/-- The identity of the stream to which an event belongs. -/
def identityOf (event : TimelineEvent) : StreamIdentity := ⟨event.daemonEpoch, event.generation⟩

/-- Whether the event first flushes the parser. -/
def flushesFirst (event : TimelineEvent) (parser : TerminalStreamParser) : Bool :=
  if event.direction = .none then terminalBoundary event.kind
  else decide (∃ current ∈ parser.context, current.identity ≠ identityOf event)

/-- The bytes of an event of the same stream. -/
theorem ends_pushEvent_bytes (hdirection : event.direction ≠ .none) (hkind : Streamed event.kind)
    (h : Identified (identityOf event) parser) :
    Ends (pushEvent labels turns event) parser
      (fun batch parser' => Shows (identityOf event) parser batch.completed parser' ∧
        parser'.context.isSome = true ∧ batch.pending = parser'.pendingLine ∧
        batch.pendingCommitted = (parser.pendingLine.isSome && !batch.completed.isEmpty))
      (fun _ _ => True) := by
  have hincoming : (LineContext.fromEvent labels event).identity = identityOf event ∧
      Streamed (LineContext.fromEvent labels event).kind := ⟨rfl, hkind⟩
  unfold pushEvent
  rw [ends_bind, ends_get, if_neg hdirection, ends_bind]
  have hsame : ¬ ∃ current ∈ parser.context,
      current.identity ≠ (LineContext.fromEvent labels event).identity := by
    rintro ⟨current, hcurrent, hother⟩
    exact hother (h.context current hcurrent).1
  rw [if_neg hsame, ends_pure]
  refine (emits_replayAbandoned hincoming parser h).bind (fun replayed parser₁ hreplayed => ?_)
    (fun _ _ _ => trivial)
  rw [ends_bind, ends_modify, ends_bind, ends_modify]
  let adopted := parser₁.adoptContext event (LineContext.fromEvent labels event)
  have hadopt : Identified (identityOf event) adopted ∧ adopted.terminal = parser₁.terminal ∧
      adopted.context.isSome = true := hreplayed.identified.adoptContext hincoming
  have hexpect : Identified (identityOf event) (adopted.expectEcho event) ∧
      (adopted.expectEcho event).terminal = adopted.terminal ∧
      (adopted.expectEcho event).context = adopted.context := hadopt.1.expectEcho
  have hstarted : (adopted.expectEcho event).context.isSome = true := by
    rw [hexpect.2.2]
    exact hadopt.2.2
  have hready := hreplayed.other hexpect.1 (hexpect.2.1.trans hadopt.2.1) (fun _ => hstarted)
  refine (emits_projectBytes _ _ hincoming _ hexpect.1).bind (fun shown parser₂ hshown => ?_)
    (fun _ _ _ => trivial)
  rw [ends_bind, ends_get, ends_pure]
  exact ⟨hready.append hshown, hshown.started hstarted, rfl, rfl⟩

/-- An event of another stream is shown by the flushed parser. -/
theorem ends_pushEvent_flushed {identity : StreamIdentity} (hdirection : event.direction ≠ .none)
    (hflushes : flushesFirst event parser = true) (h : Identified identity parser)
    {R : StreamDisplayBatch → TerminalStreamParser → Prop} :
    Ends (pushEvent labels turns event) parser R (fun _ _ => False) ↔
      Ends (flush turns) parser
        (fun lines flushed => Ends (pushEvent labels turns event) flushed
          (fun batch parser' => R ⟨lines ++ batch.completed, batch.pending,
            parser.pendingLine.isSome && !(lines ++ batch.completed).isEmpty⟩ parser')
          (fun _ _ => False))
        (fun _ _ => False) := by
  have hother : ∃ current ∈ parser.context, current.identity ≠ identityOf event := by
    simpa [flushesFirst, hdirection] using hflushes
  have hchanged : ∃ current ∈ parser.context,
      current.identity ≠ (LineContext.fromEvent labels event).identity := hother
  have hrest (lines : List DisplayLine) (flushed : TerminalStreamParser)
      (hcontext : flushed.context = none) :
      Ends (pushEvent labels turns event) flushed
          (fun batch parser' => R ⟨lines ++ batch.completed, batch.pending,
            parser.pendingLine.isSome && !(lines ++ batch.completed).isEmpty⟩ parser')
          (fun _ _ => False) ↔
        Ends (do
          let replayed ← replayAbandoned turns (LineContext.fromEvent labels event)
          modify (adoptContext event (LineContext.fromEvent labels event))
          modify (expectEcho event)
          let shown ← projectBytes turns event.direction (LineContext.fromEvent labels event)
            event.data
          let completed := lines ++ replayed ++ shown
          let last ← get
          pure ⟨completed, last.pendingLine, parser.pendingLine.isSome && !completed.isEmpty⟩)
          flushed R (fun _ _ => False) := by
    unfold pushEvent
    have hsame : ¬ ∃ current ∈ flushed.context,
        current.identity ≠ (LineContext.fromEvent labels event).identity := by
      rw [hcontext]
      simp
    simp only [ends_bind, ends_get, if_neg hdirection, if_neg hsame, ends_pure, ends_modify,
      List.nil_append, List.append_assoc]
  have hempty : Ends (flush turns) parser (fun _ flushed => flushed.context = none)
      (fun _ _ => True) :=
    (ends_flush turns h).mono (fun _ _ hflushed => hflushed.context) (fun _ _ _ => trivial)
  unfold pushEvent
  rw [ends_bind, ends_get, if_neg hdirection, ends_bind, if_pos hchanged]
  constructor
  · intro hends
    refine (hends.and hempty).mono (fun lines flushed hboth => ?_) (fun _ _ hfalse => hfalse.1)
    exact (hrest lines flushed hboth.2).mpr hboth.1
  · intro hends
    refine (hends.and hempty).mono (fun lines flushed hboth => ?_) (fun _ _ hfalse => hfalse.1)
    exact (hrest lines flushed hboth.2).mp hboth.1

end

end TerminalStreamParser

end SerialPlatform.Display
