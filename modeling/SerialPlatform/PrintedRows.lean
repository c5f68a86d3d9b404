import SerialPlatform.TerminalControls
import SerialPlatform.TerminalRuns
import SerialPlatform.TextSanitizer

/-!
# What a client prints

The rows of a parser's batches and the text of a label are printed as they are.  Neither
has a control character of one byte.  A C1 control written in UTF-8 passes through both:
through the terminal when it is fed the two bytes one behind the other, and through the
sanitizer also when something stood between them which is removed.
-/

namespace SerialPlatform.Display

open TerminalText FallibleState Utf8Scan

namespace TerminalStreamParser

/-- No byte of these completes a C1 control. -/
def NoC1 (more : List (TerminalText × UInt8)) : Prop := ∀ entry ∈ more, ¬ DecodesC1 entry.1 entry.2

instance (more : List (TerminalText × UInt8)) : Decidable (NoC1 more) :=
  inferInstanceAs (Decidable (∀ entry ∈ more, ¬ _))

/-- The bytes which an act fed, and its lines, which are printable when no C1 control was fed. -/
structure Prints (parser : TerminalStreamParser) (lines : List DisplayLine)
    (parser' : TerminalStreamParser) : Prop where
  reachable : Reachable parser'.terminal
  fed : ∃ more, parser'.fed = parser.fed ++ more ∧
    (NoC1 more → parser.terminal.Prints →
      parser'.terminal.Prints ∧ ∀ line ∈ lines, Printable line.text)

namespace Prints

variable {parser parser' parser'' : TerminalStreamParser} {lines lines' : List DisplayLine}

theorem none (h : Reachable parser.terminal) (hterminal : parser'.terminal = parser.terminal)
    (hfed : parser'.fed = parser.fed) : Prints parser [] parser' where
  reachable := by
    rw [hterminal]
    exact h
  fed := by
    refine ⟨[], by rw [hfed, List.append_nil], fun _ hprints => ⟨?_, by simp⟩⟩
    rw [hterminal]
    exact hprints

theorem append (h : Prints parser lines parser') (h' : Prints parser' lines' parser'') :
    Prints parser (lines ++ lines') parser'' where
  reachable := h'.reachable
  fed := by
    obtain ⟨more, hfed, hgood⟩ := h.fed
    obtain ⟨more', hfed', hgood'⟩ := h'.fed
    refine ⟨more ++ more', by rw [hfed', hfed, List.append_assoc], fun hno hprints => ?_⟩
    have hfirst := hgood (fun entry hmem => hno entry (List.mem_append_left _ hmem)) hprints
    have hsecond := hgood' (fun entry hmem => hno entry (List.mem_append_right _ hmem)) hfirst.1
    refine ⟨hsecond.1, fun line hmem => ?_⟩
    rcases List.mem_append.mp hmem with hmem | hmem
    · exact hfirst.2 line hmem
    · exact hsecond.2 line hmem

/-- A step on the other fields of the parser. -/
theorem other (h : Prints parser lines parser') (hterminal : parser''.terminal = parser'.terminal)
    (hfed : parser''.fed = parser'.fed) : Prints parser lines parser'' := by
  have hboth := h.append (none h.reachable hterminal hfed)
  rw [List.append_nil] at hboth
  exact hboth

/-- A step on the other fields before the act. -/
theorem before (h : Prints parser' lines parser'') (hterminal : parser'.terminal = parser.terminal)
    (hfed : parser'.fed = parser.fed) : Prints parser lines parser'' where
  reachable := h.reachable
  fed := by
    obtain ⟨more, hmore, hgood⟩ := h.fed
    refine ⟨more, by rw [hmore, hfed], ?_⟩
    rw [hterminal] at hgood
    exact hgood

end Prints

/-- From a reachable terminal the act prints its lines. -/
def Legible (act : Act (List DisplayLine)) : Prop :=
  ∀ parser, Reachable parser.terminal → Ends act parser (Prints parser) (fun _ _ => True)

section
variable {turns : ℕ} {incoming : LineContext}

theorem Legible.of_nothing : Legible (pure []) := fun _ h => Prints.none h rfl rfl

theorem Legible.append {act act' : Act (List DisplayLine)} (h : Legible act) (h' : Legible act') :
    Legible (do
      let lines ← act
      let later ← act'
      pure (lines ++ later)) := by
  intro parser hreachable
  refine (h parser hreachable).bind (fun lines parser' hprints => ?_) (fun _ _ _ => trivial)
  refine (h' parser' hprints.reachable).bind (fun later parser'' hlater => ?_)
    (fun _ _ _ => trivial)
  exact hprints.append hlater

/-- The rows which the terminal finished, before they are lines. -/
structure Finished (parser : TerminalStreamParser) (rows : List ProjectedRow)
    (parser' : TerminalStreamParser) : Prop where
  reachable : Reachable parser'.terminal
  fed : ∃ more, parser'.fed = parser.fed ++ more ∧
    (NoC1 more → parser.terminal.Prints →
      parser'.terminal.Prints ∧ ∀ row ∈ rows, Printable row.text)

theorem Finished.shows {parser parser' : TerminalStreamParser} {rows : List ProjectedRow}
    (h : Finished parser rows parser') (context : LineContext) :
    Prints parser (rows.map context.displayLine) parser' where
  reachable := h.reachable
  fed := by
    obtain ⟨more, hfed, hgood⟩ := h.fed
    refine ⟨more, hfed, fun hno hprints => ⟨(hgood hno hprints).1, fun line hmem => ?_⟩⟩
    obtain ⟨row, hrow, rfl⟩ := List.mem_map.mp hmem
    exact (hgood hno hprints).2 row hrow

theorem Finished.silent {parser parser' : TerminalStreamParser} {rows : List ProjectedRow}
    (h : Finished parser rows parser') : Prints parser [] parser' where
  reachable := h.reachable
  fed := by
    obtain ⟨more, hfed, hgood⟩ := h.fed
    exact ⟨more, hfed, fun hno hprints => ⟨(hgood hno hprints).1, by simp⟩⟩

/-- The rows are kept apart from those of the bytes before. -/
theorem prints_collected {t : TerminalText} (h : t.Prints) :
    TerminalText.Prints { t with rows := [] } :=
  ⟨h.line, by simp, h.utf8⟩

theorem finished_consumeByte (byte : UInt8) {parser : TerminalStreamParser}
    (h : Reachable parser.terminal) :
    Ends (consumeByte (turns + 16) byte) parser (Finished parser) (fun _ _ => True) := by
  have hready : Reachable { parser.terminal with rows := [] } := h.collected
  unfold consumeByte
  simp only [ends_bind, ends_get, ends_modify]
  by_cases htab : TabAtFullRow parser.terminal byte
  · rw [consume_hangs hready.bounded htab (turns + 16)]
    trivial
  · obtain ⟨terminal, hrun, hsteps⟩ := consume_returns hready.bounded htab
    have hconsume := hrun turns
    rw [hconsume]
    simp only [ends_bind, ends_modify, ends_pure]
    refine ⟨hready.consume (.of_turns hrun), [(parser.terminal, byte)], rfl,
      fun hno hprints => ?_⟩
    have hbyte : ¬ DecodesC1 parser.terminal byte :=
      hno (parser.terminal, byte) List.mem_cons_self
    have hterminal : terminal.Prints :=
      (prints_collected hprints).consume hready.bounded.utf8 hbyte hconsume
    exact ⟨hterminal, hterminal.rows⟩

theorem finished_finishRows {parser : TerminalStreamParser} (h : Reachable parser.terminal) :
    Ends (finishRows (turns + 16)) parser (Finished parser) (fun _ _ => True) := by
  have hready : Reachable { parser.terminal with rows := [] } := h.collected
  obtain ⟨terminal, hrun, hsteps⟩ := finishInput_returns hready.bounded
  unfold finishRows
  simp only [ends_bind, ends_get]
  have hfinish := hrun turns
  rw [hfinish]
  simp only [ends_bind, ends_modify, ends_pure]
  refine ⟨hready.finishInput (.of_turns hrun), [], by simp, fun _ hprints => ?_⟩
  have hterminal : terminal.Prints := (prints_collected hprints).finishInput hfinish
  exact ⟨hterminal, hterminal.rows⟩

theorem legible_commitPendingRow : Legible (commitPendingRow (turns + 16) incoming) := by
  intro parser h
  unfold commitPendingRow
  rw [ends_bind, ends_modify]
  have hstart : Reachable { parser with txLineEndPending := false }.terminal := h
  refine (finished_consumeByte _ hstart).bind (fun rows parser' hfinished => ?_)
    (fun _ _ _ => trivial)
  unfold showRows
  simp only [ends_bind, ends_get, ends_modify, ends_pure]
  have hshown : Prints parser (rows.map (parser'.context.getD incoming).displayLine) parser' :=
    (hfinished.shows _).before rfl rfl
  exact hshown.other rfl rfl

theorem legible_feedVisibleByte (byte : UInt8) :
    Legible (feedVisibleByte (turns + 16) incoming byte) := by
  intro parser h
  unfold feedVisibleByte
  rw [ends_bind, ends_get]
  have hcommitted : Legible
      (if parser.txLineEndPending ∧ byte ≠ 0x0d ∧ byte ≠ 0x0a then
        commitPendingRow (turns + 16) incoming
      else pure []) := by
    split_ifs
    · exact legible_commitPendingRow
    · exact .of_nothing
  refine (hcommitted parser h).bind (fun committed parser' hprints => ?_) (fun _ _ _ => trivial)
  refine (finished_consumeByte byte hprints.reachable).bind
    (fun rows parser'' hfinished => ?_) (fun _ _ _ => trivial)
  rw [ends_bind, ends_modify]
  by_cases hrows : rows = []
  · rw [if_pos hrows, ends_pure]
    have hall := hprints.append hfinished.silent
    rw [List.append_nil] at hall
    exact hall.other rfl rfl
  · rw [if_neg hrows]
    unfold showRows
    simp only [ends_bind, ends_get, ends_modify, ends_pure]
    exact (hprints.append (hfinished.shows _)).other rfl rfl

theorem legible_feedVisibleBytes (bytes : Bytes) :
    Legible (feedVisibleBytes (turns + 16) incoming bytes) := by
  induction bytes with
  | nil => exact .of_nothing
  | cons byte rest ih => exact (legible_feedVisibleByte byte).append ih

theorem legible_replayBufferedRx (replay : Bytes) :
    Legible (replayBufferedRx (turns + 16) replay incoming) := by
  intro parser h
  unfold replayBufferedRx
  rw [ends_bind, ends_get, ends_bind, ends_modify]
  have hlegible : Legible (do
      let committed ←
        (if (∃ current ∈ parser.context, current.direction = .tx) ∧
            (parser.echoCandidateContext.getD incoming).direction = .rx ∧
            parser.terminal.pendingText.isSome then
          commitPendingRow (turns + 16) (parser.echoCandidateContext.getD incoming)
        else pure [])
      let lines ← feedVisibleBytes (turns + 16) (parser.echoCandidateContext.getD incoming) replay
      pure (committed ++ lines)) := by
    refine Legible.append ?_ (legible_feedVisibleBytes replay)
    split_ifs
    · exact legible_commitPendingRow
    · exact .of_nothing
  refine (hlegible { parser with echoCandidateContext := none } h).mono
    (fun lines parser' hprints => ?_) (fun _ _ _ => trivial)
  exact hprints.before rfl rfl

theorem legible_replayEchoCandidate : Legible (replayEchoCandidate (turns + 16)) := by
  intro parser h
  unfold replayEchoCandidate
  rw [ends_bind, ends_get, ends_bind, ends_modify]
  split
  · exact .none h rfl rfl
  · exact .none h rfl rfl
  · rename_i fallback hfallback _
    have hreplay : Legible (replayBufferedRx (turns + 16)
        (parser.abandonedRx ++ parser.echoCandidate) fallback) := legible_replayBufferedRx _
    refine (hreplay { parser with abandonedRx := [], echoCandidate := [] } h).mono
      (fun lines parser' hprints => ?_) (fun _ _ _ => trivial)
    exact hprints.before rfl rfl

/-- The row which is still open. -/
theorem printable_pendingText {t : TerminalText} (h : t.Prints) {text : List Char}
    (htext : t.pendingText = some text) : Printable text := by
  unfold pendingText at htext
  split_ifs at htext
  cases htext
  exact h.line

theorem legible_flush : Legible (flush (turns + 16)) := by
  intro parser h
  unfold flush
  refine (legible_replayEchoCandidate parser h).bind (fun lines parser' hprints => ?_)
    (fun _ _ _ => trivial)
  refine (finished_finishRows hprints.reachable).bind (fun rows parser'' hfinished => ?_)
    (fun _ _ _ => trivial)
  rw [ends_bind, ends_get, ends_bind, ends_modify]
  have hreset {shown : List DisplayLine} (hshown : Prints parser shown parser'') :
      Prints parser shown parser''.reset := by
    obtain ⟨more, hfed, hgood⟩ := hshown.fed
    exact ⟨.default, more, hfed, fun hno h => ⟨prints_default, (hgood hno h).2⟩⟩
  cases hcontext : parser''.context with
  | none =>
      have hsilent := hprints.append hfinished.silent
      rw [List.append_nil] at hsilent
      exact hreset hsilent
  | some context =>
      have hrows := hprints.append (hfinished.shows context)
      have hpending : Prints parser'' (parser''.terminal.takePending.1.toList.map
          context.displayLine) parser'' := by
        refine ⟨hfinished.reachable, [], by simp, fun _ hterminal => ⟨hterminal, fun line hmem => ?_⟩⟩
        obtain ⟨row, hrow, rfl⟩ := List.mem_map.mp hmem
        have htaken : parser''.terminal.takePending.1 = some row := by simpa using hrow
        unfold takePending at htaken
        split at htaken
        · cases htaken
        · rename_i text htext
          cases htaken
          exact printable_pendingText hterminal htext
      exact hreset (hrows.append hpending)

theorem legible_projectByte (direction : Direction) (byte : UInt8) :
    Legible (projectByte (turns + 16) direction incoming byte) := by
  intro parser h
  have hreconciled : (parser.reconcileRxByte byte incoming).2.terminal = parser.terminal ∧
      (parser.reconcileRxByte byte incoming).2.fed = parser.fed := by
    unfold reconcileRxByte
    split
    · exact ⟨rfl, rfl⟩
    split
    · exact ⟨rfl, rfl⟩
    split
    · exact ⟨rfl, rfl⟩
    · simp only
      split <;> exact ⟨rfl, rfl⟩
  unfold projectByte
  rw [ends_ite]
  split_ifs
  · rw [ends_bind, ends_get, ends_bind, ends_modify]
    have hsame : Prints parser [] (parser.reconcileRxByte byte incoming).2 :=
      .none h hreconciled.1 hreconciled.2
    split
    · rw [ends_bind, ends_modify, ends_pure]
      refine hsame.other ?_ ?_
      · split_ifs <;> rfl
      · split_ifs <;> rfl
    · refine (legible_feedVisibleBytes _ _ hsame.reachable).mono
        (fun lines parser' hprints => ?_) (fun _ _ _ => trivial)
      exact hsame.append hprints
  · exact legible_feedVisibleBytes _ parser h
  · exact legible_feedVisibleByte byte parser h

theorem legible_projectBytes (direction : Direction) (bytes : Bytes) :
    Legible (projectBytes (turns + 16) direction incoming bytes) := by
  induction bytes with
  | nil => exact .of_nothing
  | cons byte rest ih => exact (legible_projectByte direction byte).append ih

theorem legible_replayAbandoned : Legible (replayAbandoned (turns + 16) incoming) := by
  intro parser h
  unfold replayAbandoned
  rw [ends_bind, ends_get, ends_ite]
  split_ifs
  · exact .none h rfl rfl
  · rw [ends_bind, ends_modify]
    refine (legible_replayBufferedRx _ { parser with abandonedRx := [] } h).mono
      (fun lines parser' hprints => ?_) (fun _ _ _ => trivial)
    exact hprints.before rfl rfl

theorem prints_pendingLine {parser : TerminalStreamParser} (h : Reachable parser.terminal) :
    Prints parser parser.pendingLine.toList parser := by
  refine ⟨h, [], by simp, fun _ hterminal => ⟨hterminal, fun line hmem => ?_⟩⟩
  have hpending : parser.pendingLine = some line := by simpa using hmem
  obtain ⟨context, -, hrest⟩ := Option.bind_eq_some_iff.mp hpending
  obtain ⟨text, htext, hline⟩ := Option.bind_eq_some_iff.mp hrest
  cases hline
  exact printable_pendingText hterminal htext

end

/-! ## Calls -/

section
variable {labels : Labels} {turns : ℕ}

/-- The lines of a batch are rows of the terminal, or announce an event without bytes. -/
def Announced (labels : Labels) (event : TimelineEvent) (line : DisplayLine) : Prop :=
  event.direction = .none ∧ line ∈ labels.eventToLines event

theorem ends_pushEvent_prints (event : TimelineEvent) {parser : TerminalStreamParser}
    (h : Reachable parser.terminal) :
    Ends (pushEvent labels (turns + 16) event) parser
      (fun batch parser' => ∃ rows, Prints parser rows parser' ∧
        ∀ line ∈ batch.completed ++ batch.pending.toList,
          line ∈ rows ∨ Announced labels event line)
      (fun _ _ => True) := by
  unfold pushEvent
  rw [ends_bind, ends_get, ends_ite]
  by_cases hnone : event.direction = .none
  · rw [if_pos hnone, ends_ite]
    split_ifs
    · refine (legible_flush parser h).bind (fun lines parser' hprints => ?_) (fun _ _ _ => trivial)
      rw [ends_pure]
      refine ⟨lines, hprints, fun line hmem => ?_⟩
      have hline : line ∈ lines ∨ line ∈ labels.eventToLines event := by simpa using hmem
      rcases hline with hline | hline
      · exact .inl hline
      · exact .inr ⟨hnone, hline⟩
    · rw [ends_pure]
      refine ⟨_, prints_pendingLine h, fun line hmem => ?_⟩
      rcases List.mem_append.mp hmem with hline | hline
      · exact .inr ⟨hnone, hline⟩
      · exact .inl hline
    · refine ⟨_, prints_pendingLine h, fun line hmem => ?_⟩
      rcases List.mem_append.mp hmem with hline | hline
      · cases hline
      · exact .inl hline
  · rw [if_neg hnone]
    have hflush : Legible (if ∃ current ∈ parser.context,
          current.identity ≠ (LineContext.fromEvent labels event).identity then flush (turns + 16)
        else pure []) := by
      split_ifs
      · exact legible_flush
      · exact .of_nothing
    refine (hflush parser h).bind (fun flushed parser₁ hflushed => ?_) (fun _ _ _ => trivial)
    refine (legible_replayAbandoned parser₁ hflushed.reachable).bind
      (fun replayed parser₂ hreplayed => ?_) (fun _ _ _ => trivial)
    rw [ends_bind, ends_modify, ends_bind, ends_modify]
    have hadopted : Prints parser (flushed ++ replayed)
        (parser₂.adoptContext event (LineContext.fromEvent labels event)) := by
      refine (hflushed.append hreplayed).other ?_ ?_
      · unfold adoptContext
        split
        · rfl
        · split_ifs <;> rfl
      · unfold adoptContext
        split
        · rfl
        · split_ifs <;> rfl
    have hexpected : Prints parser (flushed ++ replayed) (expectEcho event
        (parser₂.adoptContext event (LineContext.fromEvent labels event))) := by
      refine hadopted.other ?_ ?_
      · unfold expectEcho
        dsimp only
        split_ifs <;> rfl
      · unfold expectEcho
        dsimp only
        split_ifs <;> rfl
    refine (legible_projectBytes event.direction event.data _ hexpected.reachable).bind
      (fun shown parser₃ hshown => ?_) (fun _ _ _ => trivial)
    rw [ends_bind, ends_get, ends_pure]
    have hcompleted := hexpected.append hshown
    have hall := hcompleted.append (prints_pendingLine hcompleted.reachable)
    exact ⟨_, hall, fun line hmem => .inl hmem⟩

/-- What a call hands out. -/
def linesOf (labels : Labels) (turns : ℕ) : Call → Act (List DisplayLine)
  | .setEchoReconciliation enabled => do
      modify (setEchoReconciliation enabled)
      pure []
  | .pushEvent event => do
      let batch ← pushEvent labels turns event
      pure (batch.completed ++ batch.pending.toList)
  | .flush => flush turns
  | .reset => do
      modify reset
      pure []

/-- A line which announces the event of the call, and is no row of the terminal. -/
def Announces (labels : Labels) (what : Call) (line : DisplayLine) : Prop :=
  ∃ event, what = .pushEvent event ∧ Announced labels event line

theorem ends_linesOf (what : Call) {parser : TerminalStreamParser} (h : Reachable parser.terminal) :
    Ends (linesOf labels (turns + 16) what) parser
      (fun lines parser' => ∃ rows, Prints parser rows parser' ∧
        ∀ line ∈ lines, line ∈ rows ∨ Announces labels what line)
      (fun _ _ => True) := by
  cases what with
  | setEchoReconciliation enabled =>
      have hsame : Prints parser [] (parser.setEchoReconciliation enabled) := by
        refine .none h ?_ ?_
        · unfold setEchoReconciliation
          split_ifs <;> rfl
        · unfold setEchoReconciliation
          split_ifs <;> rfl
      exact ⟨[], hsame, by simp⟩
  | pushEvent event =>
      refine (ends_pushEvent_prints event h).bind (fun batch parser' hprints => ?_)
        (fun _ _ _ => trivial)
      obtain ⟨rows, hrows, hlines⟩ := hprints
      refine ⟨rows, hrows, fun line hmem => ?_⟩
      rcases hlines line hmem with hline | hannounced
      · exact .inl hline
      · exact .inr ⟨event, rfl, hannounced⟩
  | flush =>
      exact (legible_flush parser h).mono (fun lines _ hprints => ⟨lines, hprints, fun _ => .inl⟩)
        (fun _ _ _ => trivial)
  | reset =>
      have hempty : Prints parser [] parser.reset :=
        ⟨.default, [], by simp [reset], fun _ _ => ⟨prints_default, by simp⟩⟩
      exact ⟨[], hempty, by simp⟩

/-- A call changes the parser as it does when its lines are kept. -/
theorem ends_call_iff (what : Call) (parser : TerminalStreamParser)
    {Q : TerminalStreamParser → Prop} :
    Ends (call labels turns what) parser (fun _ parser' => Q parser') (fun _ _ => True) ↔
      Ends (linesOf labels turns what) parser (fun _ parser' => Q parser') (fun _ _ => True) := by
  cases what with
  | setEchoReconciliation enabled => rfl
  | pushEvent event => simp only [call, linesOf, ends_discard, ends_bind, ends_pure]
  | flush => simp only [call, linesOf, ends_discard]
  | reset => rfl

/-- From a terminal without controls, through any calls. -/
theorem ends_callAll_prints (calls : List Call) {parser : TerminalStreamParser}
    (h : Reachable parser.terminal) :
    Ends (callAll labels (turns + 16) calls) parser (fun _ parser' => Prints parser [] parser')
      (fun _ _ => True) := by
  induction calls generalizing parser with
  | nil => exact .none h rfl rfl
  | cons what rest ih =>
      have hcall : Ends (call labels (turns + 16) what) parser
          (fun _ parser' => Prints parser [] parser') (fun _ _ => True) := by
        rw [ends_call_iff]
        refine (ends_linesOf what h).mono (fun _ parser' hlines => ?_) (fun _ _ _ => trivial)
        obtain ⟨rows, hprints, -⟩ := hlines
        obtain ⟨more, hfed, hgood⟩ := hprints.fed
        exact ⟨hprints.reachable, more, hfed, fun hno hstart => ⟨(hgood hno hstart).1, by simp⟩⟩
      refine hcall.bind (fun _ parser' hfirst => ?_) (fun _ _ _ => trivial)
      refine (ih hfirst.reachable).mono (fun _ parser'' hrest => ?_) (fun _ _ _ => trivial)
      exact hfirst.append hrest

end

/-- In every run, while no byte fed to the terminal completes a C1 control, the rows have no
control character; and sanitized text has none but newline, carriage return and tab, and
a label none at all, exactly when its bytes hide no C1 control. -/
theorem printed_text_controls (labels : Labels) :
    (∀ turns calls what parser lines parser',
      (callAll labels (turns + 16) calls).run.run new = (.ok (), parser) →
      (linesOf labels (turns + 16) what).run.run parser = (.ok lines, parser') →
      NoC1 parser'.fed → ∀ line ∈ lines, Announces labels what line ∨ Printable line.text) ∧
    (∀ bytes, (∀ character ∈ sanitizeTerminalBytes bytes, IsControl character →
      character = '\n' ∨ character = '\r' ∨ character = '\t') ↔ ¬ HidesC1 bytes) ∧
    (∀ value, (∀ character ∈ safeInline value, ¬ IsControl character) ↔ ¬ HidesC1 value) := by
  refine ⟨?_, sanitizeTerminalBytes_controls_iff, safeInline_controls_iff⟩
  intro turns calls what parser lines parser' hcalls hwhat hno line hline
  have hends : Ends (callAll labels (turns + 16) calls) new
      (fun _ parser' => Prints new [] parser') (fun _ _ => True) :=
    ends_callAll_prints calls .default
  have hstart := hends.run hcalls
  obtain ⟨rows, hprints, hlines⟩ := (ends_linesOf what hstart.reachable).run hwhat
  rcases hlines line hline with hrow | hannounces
  · obtain ⟨more, hfed, hgood⟩ := hstart.fed
    obtain ⟨more', hfed', hgood'⟩ := hprints.fed
    have hbefore : NoC1 more := by
      intro entry hmem
      apply hno
      rw [hfed', hfed]
      exact List.mem_append_left _ (List.mem_append_right _ hmem)
    have hnow : NoC1 more' := by
      intro entry hmem
      apply hno
      rw [hfed']
      exact List.mem_append_right _ hmem
    exact .inr ((hgood' hnow (hgood hbefore prints_default).1).2 line hrow)
  · exact .inl hannounces

/-! ## A control which is shown -/

def plainLabels : Labels where
  sourceLabel _ := ""
  eventToLines _ := []

def deviceBytes (data : Bytes) : TimelineEvent where
  port := "uart"
  daemonEpoch := 1
  seq := 1
  generation := 1
  wallTimeNs := 0
  monotonicTimeNs := 0
  kind := .rx
  direction := .rx
  actor := none
  runId := none
  operationId := none
  streamOffsetStart := none
  streamOffsetEnd := none
  data := data
  metadata := []
  durable := true

/-- The parser's first event has the bytes `data`. -/
def runOn (data : Bytes) : Except Unit (List DisplayLine) × TerminalStreamParser :=
  (linesOf plainLabels 16 (.pushEvent (deviceBytes data))).run.run new

def shownTexts (data : Bytes) : Option (List (List Char)) :=
  (runOn data).1.toOption.map fun lines => lines.map DisplayLine.text

theorem shownTexts_some {data : Bytes} {texts : List (List Char)}
    (h : shownTexts data = some texts) :
    ∃ lines parser, runOn data = (.ok lines, parser) ∧ lines.map DisplayLine.text = texts := by
  unfold shownTexts at h
  generalize runOn data = run at h ⊢
  obtain ⟨result, parser⟩ := run
  cases result with
  | error error => simp [Except.toOption] at h
  | ok lines =>
    simp only [Except.toOption, Option.map_some, Option.some.injEq] at h
    exact ⟨lines, parser, rfl, h⟩

/-- Letters, a colour and a character outside ASCII. -/
theorem colored_letters_printable :
    ∃ lines parser, (linesOf plainLabels 16 (.pushEvent (deviceBytes
        [0x61, 0x1b, 0x5b, 0x6d, 0xc2, 0xa0, 0x0a]))).run.run new = (.ok lines, parser) ∧
      ∀ line ∈ lines, Announces plainLabels (.pushEvent (deviceBytes
        [0x61, 0x1b, 0x5b, 0x6d, 0xc2, 0xa0, 0x0a])) line ∨ Printable line.text := by
  have hshown : (shownTexts [0x61, 0x1b, 0x5b, 0x6d, 0xc2, 0xa0, 0x0a]).isSome = true := by
    decide +kernel
  have hno : NoC1 (runOn [0x61, 0x1b, 0x5b, 0x6d, 0xc2, 0xa0, 0x0a]).2.fed := by decide +kernel
  obtain ⟨texts, htexts⟩ := Option.isSome_iff_exists.mp hshown
  obtain ⟨lines, parser, hrun, -⟩ := shownTexts_some htexts
  rw [hrun] at hno
  exact ⟨lines, parser, hrun,
    (printed_text_controls plainLabels).1 0 [] _ new lines parser rfl hrun hno⟩

example : shownTexts [0xc2, 0x9b] = some [['\u009b']] := by decide +kernel

/-- The device sends U+009B, the C1 control which starts a control sequence: it is a
character of the row, and one of the text when an escape sequence is cut out of it. -/
theorem c1_is_shown :
    (∃ lines parser, (linesOf plainLabels 16 (.pushEvent (deviceBytes [0xc2, 0x9b]))).run.run new =
      (.ok lines, parser) ∧ ∃ line ∈ lines, '\u009b' ∈ line.text ∧ IsControl '\u009b') ∧
    '\u009b' ∈ sanitizeTerminalBytes [0xc2, 0x1b, 0x5b, 0x6d, 0x9b] := by
  have hshown : shownTexts [0xc2, 0x9b] = some [['\u009b']] := by decide +kernel
  obtain ⟨lines, parser, hrun, htexts⟩ := shownTexts_some hshown
  constructor
  · refine ⟨lines, parser, hrun, ?_⟩
    obtain ⟨line, hline, htext⟩ : ∃ line ∈ lines, line.text = ['\u009b'] := by
      have hmem : ['\u009b'] ∈ lines.map DisplayLine.text := by
        rw [htexts]
        exact List.mem_cons_self
      exact List.mem_map.mp hmem
    refine ⟨line, hline, ?_, by decide⟩
    rw [htext]
    exact List.mem_cons_self
  · decide

end TerminalStreamParser

end SerialPlatform.Display
