import SerialPlatform.EchoLedger

/-!
# Runs of echo reconciliation

Every call of a parser keeps the ledger: what the events bring is received or sent, and the
terminal is fed the pieces which are shown and the writes, in the order of the calls.
-/

namespace SerialPlatform.Display

open FallibleState

/-- What the parser shows of a write by itself. -/
def localEcho (byte : UInt8) : Bytes := if byte = 0x08 ∨ byte = 0x7f then eraseEcho else [byte]

example : localEcho 0x7f = eraseEcho := by decide +kernel

namespace TerminalStreamParser

/-- The ledger goes on: so much was received, sent and written to the terminal. -/
def Books (received' sent' written : Bytes) (parser parser' : TerminalStreamParser) : Prop :=
  ∀ received sent pieces, Accounts received sent pieces parser →
    ∃ pieces' traffic, Accounts (received ++ received') (sent ++ sent') pieces' parser' ∧
      Feeds traffic parser parser' ∧
      pieces'.flatMap Piece.passed = pieces.flatMap Piece.passed ++ traffic.of .device ∧
      traffic.of .writer = written.flatMap localEcho

namespace Books

variable {received sent written received' sent' written' : Bytes}
variable {parser parser' parser'' : TerminalStreamParser}

theorem trans (h : Books received sent written parser parser')
    (h' : Books received' sent' written' parser' parser'') :
    Books (received ++ received') (sent ++ sent') (written ++ written') parser parser'' := by
  intro before told pieces haccounts
  obtain ⟨pieces₁, traffic, haccounts₁, hfeeds, hpassed, hwritten⟩ := h before told pieces haccounts
  obtain ⟨pieces₂, traffic', haccounts₂, hfeeds', hpassed', hwritten'⟩ :=
    h' _ _ pieces₁ haccounts₁
  refine ⟨pieces₂, traffic ++ traffic', ?_, hfeeds.append hfeeds', ?_, ?_⟩
  · rw [← List.append_assoc, ← List.append_assoc]
    exact haccounts₂
  · rw [hpassed', hpassed, Traffic.of_append, List.append_assoc]
  · rw [Traffic.of_append, hwritten, hwritten', List.flatMap_append]

/-- Nothing is received, sent or fed. -/
theorem quiet (hfed : parser'.fed = parser.fed)
    (h : ∀ received sent pieces, Accounts received sent pieces parser →
      Accounts received sent pieces parser') : Books [] [] [] parser parser' := by
  intro before told pieces haccounts
  refine ⟨pieces, [], ?_, .none hfed, by simp, rfl⟩
  rw [List.append_nil, List.append_nil]
  exact h before told pieces haccounts

/-- Bytes are fed which the ledger already passed on. -/
theorem hand {bytes : Bytes} {parser₁ : TerminalStreamParser}
    (hfeeds : Feeds (Traffic.all .device bytes) parser₁ parser') (hsame : SameEcho parser₁ parser')
    (hfed : parser₁.fed = parser.fed)
    (hbook : ∀ before told pieces, Accounts before told pieces parser → ∃ pieces',
      Accounts (before ++ received) told pieces' parser₁ ∧
        pieces'.flatMap Piece.passed = pieces.flatMap Piece.passed ++ bytes) :
    Books received [] [] parser parser' := by
  intro before told pieces haccounts
  obtain ⟨pieces', haccounts', hpassed⟩ := hbook before told pieces haccounts
  refine ⟨pieces', _, ?_, (Feeds.none hfed).append hfeeds, ?_, ?_⟩
  · rw [List.append_nil]
    exact haccounts'.same hsame
  · rw [hpassed, List.nil_append, Traffic.of_all]
  · rw [List.nil_append, Traffic.of_all_ne (by decide)]
    rfl

/-- Writes are fed. -/
theorem write (hfeeds : Feeds (Traffic.all .writer (written.flatMap localEcho)) parser parser')
    (hsame : SameEcho parser parser') : Books [] [] written parser parser' := by
  intro before told pieces haccounts
  refine ⟨pieces, _, ?_, hfeeds, ?_, Traffic.of_all _ _⟩
  · rw [List.append_nil, List.append_nil]
    exact haccounts.same hsame
  · rw [Traffic.of_all_ne (by decide), List.append_nil]

end Books

section
variable {turns : ℕ} {incoming : LineContext} {parser : TerminalStreamParser}

/-- While bytes from the device are reconciled, none are left from before. -/
def Ready (parser : TerminalStreamParser) : Prop :=
  parser.abandonedRx = [] ∧ parser.context.isSome = true

theorem Ready.same {parser' : TerminalStreamParser} (h : Ready parser)
    (hsame : SameEcho parser parser') : Ready parser' := by
  refine ⟨?_, hsame.context h.2⟩
  rw [hsame.abandonedRx]
  exact h.1

theorem books_projectByte_rx (byte : UInt8) (hready : Ready parser) :
    Ends (projectByte turns .rx incoming byte) parser
      (fun _ parser' => Books [byte] [] [] parser parser' ∧ Ready parser') (fun _ _ => True) := by
  obtain ⟨habandoned, hcontext, hfed⟩ := reconcileRxByte_rest parser byte incoming
  have hready' : Ready (parser.reconcileRxByte byte incoming).2 := by
    unfold Ready
    rw [habandoned, hcontext]
    exact hready
  have hdecides (before told : Bytes) (pieces : List Piece)
      (h : Accounts before told pieces parser) :=
    h.reconcileRxByte hready.1 hready.2 byte incoming
  unfold projectByte
  rw [if_pos rfl, ends_bind, ends_get, ends_bind, ends_modify]
  cases hresult : (parser.reconcileRxByte byte incoming).1 with
  | suppressed expectationComplete =>
      rw [hresult] at hdecides
      rw [ends_bind, ends_modify, ends_pure]
      have hsame : SameEcho (parser.reconcileRxByte byte incoming).2
          (if expectationComplete then
            { (parser.reconcileRxByte byte incoming).2 with
              context := (parser.reconcileRxByte byte incoming).2.context.map
                (fun context => { context with echoed := true }) }
          else (parser.reconcileRxByte byte incoming).2) := by
        split_ifs
        · exact ⟨rfl, rfl, rfl, rfl, rfl, rfl, by simp⟩
        · exact ⟨rfl, rfl, rfl, rfl, rfl, rfl, id⟩
      refine ⟨?_, hready'.same hsame⟩
      have hnone : Feeds (Traffic.all .device []) (parser.reconcileRxByte byte incoming).2
          (if expectationComplete then
            { (parser.reconcileRxByte byte incoming).2 with
              context := (parser.reconcileRxByte byte incoming).2.context.map
                (fun context => { context with echoed := true }) }
          else (parser.reconcileRxByte byte incoming).2) := by
        apply Feeds.none
        split_ifs <;> rfl
      refine Books.hand hnone hsame hfed (fun before told pieces h => ?_)
      cases hdecides before told pieces h with
      | @suppressed pieces' _ _ haccounts hpassed =>
          exact ⟨pieces', haccounts, by rw [hpassed, List.append_nil]⟩
  | visible bytes =>
      rw [hresult] at hdecides
      have hands : Hands (Traffic.all .device bytes) (feedVisibleBytes turns incoming bytes) :=
        hands_feedVisibleBytes (by decide) bytes
      refine (hands _).mono (fun _ parser' h => ?_) (fun _ _ _ => trivial)
      refine ⟨Books.hand h.1 h.2 hfed (fun before told pieces haccounts => ?_), hready'.same h.2⟩
      cases hdecides before told pieces haccounts with
      | visible haccounts' =>
          exact ⟨_, haccounts', by simp [Piece.passed]⟩

theorem books_projectBytes_rx (bytes : Bytes) (hready : Ready parser) :
    Ends (projectBytes turns .rx incoming bytes) parser
      (fun _ parser' => Books bytes [] [] parser parser' ∧ Ready parser') (fun _ _ => True) := by
  induction bytes generalizing parser with
  | nil => exact ⟨.quiet rfl (fun _ _ _ h => h), hready⟩
  | cons byte rest ih =>
      refine (books_projectByte_rx byte hready).bind (fun lines parser' h => ?_)
        (fun _ _ _ => trivial)
      refine (ih h.2).bind (fun later parser'' h' => ?_) (fun _ _ _ => trivial)
      exact ⟨h.1.trans h'.1, h'.2⟩

theorem hands_projectByte_tx {direction : Direction} (hdirection : direction ≠ .rx) (byte : UInt8) :
    Hands (Traffic.all .writer (localEcho byte)) (projectByte turns direction incoming byte) := by
  unfold projectByte localEcho
  rw [if_neg hdirection]
  split_ifs
  · exact hands_feedVisibleBytes (by decide) _
  · exact hands_feedVisibleByte (by decide) byte

theorem hands_projectBytes_tx {direction : Direction} (hdirection : direction ≠ .rx)
    (bytes : Bytes) :
    Hands (Traffic.all .writer (bytes.flatMap localEcho))
      (projectBytes turns direction incoming bytes) := by
  induction bytes with
  | nil => exact .of_pure _
  | cons byte rest ih =>
      rw [List.flatMap_cons, Traffic.all_append]
      refine Hands.of_bind (hands_projectByte_tx hdirection byte) fun lines => ?_
      exact .bind_then ih fun _ => .of_pure _

theorem books_replayAbandoned :
    Ends (replayAbandoned turns incoming) parser
      (fun _ parser' => Books [] [] [] parser parser' ∧ parser'.abandonedRx = [])
      (fun _ _ => True) := by
  unfold replayAbandoned
  rw [ends_bind, ends_get, ends_ite]
  split_ifs with hnone
  · exact ⟨.quiet rfl (fun _ _ _ h => h), hnone⟩
  · rw [ends_bind, ends_modify]
    refine (hands_replayBufferedRx _ _).mono (fun _ parser' h => ⟨?_, ?_⟩)
      (fun _ _ _ => trivial)
    · refine Books.hand h.1 h.2 rfl (fun before told pieces haccounts => ?_)
      obtain ⟨hcandidate, hswallow⟩ := haccounts.withholds.abandoned hnone
      have hwithheld : parser.withheld = parser.abandonedRx := by simp [withheld, hcandidate]
      refine ⟨pieces ++ [.shown parser.withheld], ?_, by simp [Piece.passed, hwithheld]⟩
      rw [List.append_nil]
      refine haccounts.give (.inr ⟨rfl, rfl, rfl⟩) (fun hempty => ?_) hswallow rfl hcandidate
      have hqueue : parser.expectedEchoes = [] := hempty
      have hcount := haccounts.withholds.expectedEchoBytes
      rw [hqueue] at hcount
      exact hcount
    · rw [h.2.abandonedRx]

theorem books_replayEchoCandidate :
    Ends (replayEchoCandidate turns) parser
      (fun _ parser' => Books [] [] [] parser parser' ∧
        (Withholds parser → parser'.withheld = []))
      (fun _ _ => True) := by
  unfold replayEchoCandidate
  rw [ends_bind, ends_get, ends_bind, ends_modify]
  split
  · rename_i hnone
    have hboth := List.append_eq_nil_iff.mp hnone
    refine ⟨.quiet rfl (fun _ _ _ h => h.same ?_), fun _ => rfl⟩
    exact ⟨rfl, rfl, rfl, hboth.2.symm, hboth.1.symm, rfl, id⟩
  · rename_i hcontext hsome
    -- withheld bytes always have a context
    have hbad (h : Withholds parser) : False := by
      have hstarted := h.context (fun hnone => hsome hnone)
      rw [hcontext] at hstarted
      cases hstarted
    exact ⟨fun _ _ _ haccounts => (hbad haccounts.withholds).elim, fun h => (hbad h).elim⟩
  · rename_i fallback hcontext hsome
    refine (hands_replayBufferedRx _ _).mono (fun _ parser' h => ⟨?_, fun _ => ?_⟩)
      (fun _ _ _ => trivial)
    · refine Books.hand h.1 h.2 rfl (fun before told pieces haccounts => ?_)
      have hswallow : parser.swallowOptionalEchoLf = false := by
        by_contra hset
        have hset' : parser.swallowOptionalEchoLf = true := by simpa using hset
        by_cases hfirst : parser.abandonedRx = []
        · apply hsome
          rw [hfirst, haccounts.withholds.swallow hset', List.append_nil]
        · rw [(haccounts.withholds.abandoned hfirst).2] at hset'
          cases hset'
      refine ⟨pieces ++ [.shown parser.withheld], ?_, by simp [Piece.passed, withheld]⟩
      rw [List.append_nil]
      refine haccounts.give (.inr ⟨rfl, rfl, rfl⟩) (fun hempty => ?_) hswallow rfl rfl
      have hqueue : parser.expectedEchoes = [] := hempty
      have hcount := haccounts.withholds.expectedEchoBytes
      rw [hqueue] at hcount
      exact hcount
    · rw [withheld, h.2.abandonedRx, h.2.echoCandidate]
      rfl

/-- A flush gives everything back and expects nothing any more. -/
theorem books_flush :
    Ends (flush turns) parser
      (fun _ parser' => Books [] [] [] parser parser' ∧ parser'.withheld = []) (fun _ _ => True) := by
  unfold flush
  refine books_replayEchoCandidate.bind (fun lines parser₁ h => ?_)
    (fun _ _ _ => trivial)
  refine (hands_finishRows parser₁).bind (fun rows parser₂ h' => ?_) (fun _ _ _ => trivial)
  rw [ends_bind, ends_get, ends_bind, ends_modify]
  have hreset : Books [] [] [] parser parser₂.reset := by
    intro before told pieces haccounts
    have hgiven : parser₂.withheld = [] := by
      have hempty := h.2 haccounts.withholds
      unfold withheld at hempty ⊢
      rw [h'.2.abandonedRx, h'.2.echoCandidate]
      exact hempty
    have hfed : Feeds [] parser₂ parser₂.reset := .none rfl
    obtain ⟨pieces', traffic, haccounts', hfeeds, hpassed, hwritten⟩ :=
      h.1 before told pieces haccounts
    refine ⟨pieces', traffic, ?_, ?_, hpassed, hwritten⟩
    · exact (haccounts'.same h'.2).giveUp hgiven.symm rfl rfl rfl rfl (fun hsome => absurd hgiven hsome)
    · have hall := (hfeeds.append h'.1).append hfed
      rw [List.append_nil, List.append_nil] at hall
      exact hall
  split
  · exact ⟨hreset, rfl⟩
  · exact ⟨hreset, rfl⟩

/-! ## Calls -/

/-- The bytes which an event brings from the device. -/
def receivedBy (event : TimelineEvent) : Bytes := if event.direction = .rx then event.data else []

/-- The bytes which an event says were written. -/
def sentBy (event : TimelineEvent) : Bytes := if event.direction = .tx then event.data else []

theorem sameEcho_adoptContext (event : TimelineEvent) :
    SameEcho parser (parser.adoptContext event incoming) ∧
      (parser.adoptContext event incoming).context.isSome = true ∧
      (parser.adoptContext event incoming).fed = parser.fed := by
  unfold TerminalStreamParser.adoptContext
  split
  · exact ⟨⟨rfl, rfl, rfl, rfl, rfl, rfl, fun _ => rfl⟩, rfl, rfl⟩
  · split_ifs
    · exact ⟨⟨rfl, rfl, rfl, rfl, rfl, rfl, fun _ => rfl⟩, rfl, rfl⟩
    · exact ⟨⟨rfl, rfl, rfl, rfl, rfl, rfl, fun _ => rfl⟩, rfl, rfl⟩
    · exact ⟨⟨rfl, rfl, rfl, rfl, rfl, rfl, fun _ => rfl⟩, rfl, rfl⟩

theorem books_expectEcho (event : TimelineEvent) :
    Books [] (sentBy event) [] parser (parser.expectEcho event) := by
  intro before told pieces haccounts
  have hfed : (parser.expectEcho event).fed = parser.fed := by
    unfold TerminalStreamParser.expectEcho
    dsimp only
    split_ifs <;> rfl
  refine ⟨pieces, [], ?_, .none hfed, by simp, rfl⟩
  rw [List.append_nil]
  exact haccounts.expectEcho event

/-- A call which settles the ledger. -/
def Settles : Call → Prop
  | .flush => True
  | .pushEvent event => event.direction = .none ∧ terminalBoundary event.kind = true
  | _ => False

theorem books_pushEvent (labels : Labels) (event : TimelineEvent) :
    Ends (pushEvent labels turns event) parser
      (fun _ parser' => Books (receivedBy event) (sentBy event) (sentBy event) parser parser' ∧
        (Settles (.pushEvent event) → parser'.withheld = []))
      (fun _ _ => True) := by
  have hkept : Books [] [] [] parser parser := .quiet rfl (fun _ _ _ h => h)
  unfold pushEvent
  rw [ends_bind, ends_get, ends_ite]
  by_cases hnone : event.direction = .none
  · have hreceived : receivedBy event = [] := by simp [receivedBy, hnone]
    have hsent : sentBy event = [] := by simp [sentBy, hnone]
    rw [if_pos hnone, hreceived, hsent, ends_ite]
    by_cases hboundary : terminalBoundary event.kind = true
    · rw [if_pos hboundary]
      refine books_flush.bind (fun lines parser' h => ?_) (fun _ _ _ => trivial)
      exact ⟨h.1, fun _ => h.2⟩
    · rw [if_neg hboundary]
      exact ⟨hkept, fun hsettles => absurd hsettles.2 hboundary⟩
  · rw [if_neg hnone]
    have hflushed : Ends (if ∃ current ∈ parser.context,
          current.identity ≠ (LineContext.fromEvent labels event).identity then flush turns
        else pure []) parser (fun _ parser' => Books [] [] [] parser parser') (fun _ _ => True) := by
      rw [ends_ite]
      split_ifs
      · exact books_flush.mono (fun _ _ h => h.1) (fun _ _ _ => trivial)
      · exact hkept
    refine hflushed.bind (fun flushed parser₁ h₁ => ?_) (fun _ _ _ => trivial)
    refine books_replayAbandoned.bind (fun replayed parser₂ h₂ => ?_) (fun _ _ _ => trivial)
    rw [ends_bind, ends_modify, ends_bind, ends_modify]
    have hadopt : SameEcho parser₂ (parser₂.adoptContext event (.fromEvent labels event)) ∧
        (parser₂.adoptContext event (.fromEvent labels event)).context.isSome = true ∧
        (parser₂.adoptContext event (.fromEvent labels event)).fed = parser₂.fed :=
      sameEcho_adoptContext event
    obtain ⟨hsame, hcontext, hfed⟩ := hadopt
    have hadopted : Books [] [] [] parser₂
        (parser₂.adoptContext event (LineContext.fromEvent labels event)) :=
      .quiet hfed (fun _ _ _ h => h.same hsame)
    have hbefore := ((h₁.trans h₂.1).trans hadopted).trans (books_expectEcho event)
    have hprojected : Ends (projectBytes turns event.direction (LineContext.fromEvent labels event)
          event.data)
        (expectEcho event (parser₂.adoptContext event (LineContext.fromEvent labels event)))
        (fun _ parser' => Books (receivedBy event) [] (sentBy event)
          (expectEcho event (parser₂.adoptContext event (LineContext.fromEvent labels event)))
          parser') (fun _ _ => True) := by
      by_cases hrx : event.direction = .rx
      · have hready : Ready (expectEcho event
            (parser₂.adoptContext event (LineContext.fromEvent labels event))) := by
          have htx : event.direction ≠ .tx := by rw [hrx]; decide
          unfold TerminalStreamParser.expectEcho
          rw [if_neg (fun hboth => htx hboth.1)]
          exact ⟨by rw [hsame.abandonedRx]; exact h₂.2, hcontext⟩
        have hsent : sentBy event = [] := by simp [sentBy, hrx]
        have hreceived : receivedBy event = event.data := by simp [receivedBy, hrx]
        rw [hsent, hreceived, hrx]
        exact (books_projectBytes_rx _ hready).mono (fun _ _ h => h.1) (fun _ _ _ => trivial)
      · have htx : event.direction = .tx := by
          cases hdirection : event.direction with
          | rx => exact absurd hdirection hrx
          | tx => rfl
          | none => exact absurd hdirection hnone
        have hsent : sentBy event = event.data := by simp [sentBy, htx]
        have hreceived : receivedBy event = [] := by simp [receivedBy, htx]
        rw [hsent, hreceived]
        exact (hands_projectBytes_tx hrx event.data _).mono (fun _ _ h => .write h.1 h.2)
          (fun _ _ _ => trivial)
    refine hprojected.bind (fun shown parser₃ h₃ => ?_) (fun _ _ _ => trivial)
    rw [ends_bind, ends_get, ends_pure]
    refine ⟨?_, fun hsettles => absurd hsettles.1 hnone⟩
    have hall := hbefore.trans h₃
    simpa using hall

def receivedIn : Call → Bytes
  | .pushEvent event => receivedBy event
  | _ => []

def sentIn : Call → Bytes
  | .pushEvent event => sentBy event
  | _ => []

example : sentIn .flush = [] := by decide +kernel

theorem books_call (labels : Labels) {what : Call} (hreset : what ≠ .reset) :
    Ends (call labels turns what) parser
      (fun _ parser' => Books (receivedIn what) (sentIn what) (sentIn what) parser parser' ∧
        (Settles what → parser'.withheld = []))
      (fun _ _ => True) := by
  cases what with
  | setEchoReconciliation enabled =>
      have hfed : (parser.setEchoReconciliation enabled).fed = parser.fed := by
        unfold TerminalStreamParser.setEchoReconciliation
        split_ifs <;> rfl
      exact ⟨.quiet hfed (fun _ _ _ h => h.setEchoReconciliation enabled), fun h => h.elim⟩
  | pushEvent event =>
      rw [call, ends_discard]
      exact books_pushEvent labels event
  | flush =>
      rw [call, ends_discard]
      exact books_flush.mono (fun _ _ h => ⟨h.1, fun _ => h.2⟩) (fun _ _ _ => trivial)
  | reset => exact absurd rfl hreset

theorem books_callAll (labels : Labels) (calls : List Call) (hreset : Call.reset ∉ calls) :
    Ends (callAll labels turns calls) parser
      (fun _ parser' => Books (calls.flatMap receivedIn) (calls.flatMap sentIn)
        (calls.flatMap sentIn) parser parser')
      (fun _ _ => True) := by
  induction calls generalizing parser with
  | nil => exact .quiet rfl (fun _ _ _ h => h)
  | cons what rest ih =>
      have hfirst : what ≠ .reset := fun heq => hreset (by simp [heq])
      have hrest : Call.reset ∉ rest := fun hmem => hreset (List.mem_cons_of_mem _ hmem)
      refine (books_call labels hfirst).bind (fun _ parser' h => ?_) (fun _ _ _ => trivial)
      refine (ih hrest).mono (fun _ parser'' h' => ?_) (fun _ _ _ => trivial)
      simpa only [List.flatMap_cons] using h.1.trans h'

end

def shellBytes (direction : Direction) (data : Bytes) : TimelineEvent where
  port := "uart"
  daemonEpoch := 1
  seq := 1
  generation := 1
  wallTimeNs := 0
  monotonicTimeNs := 0
  kind := if direction = .tx then .tx else .rx
  direction := direction
  actor := none
  runId := none
  operationId := none
  streamOffsetStart := none
  streamOffsetEnd := none
  data := data
  metadata := []
  durable := true

def quietLabels : Labels where
  sourceLabel _ := ""
  eventToLines _ := []

/-- A command is echoed with a wrap inside and a newline behind it, before its output; the
echo of the next one is cut off. -/
def wrappedEcho : List Call :=
  [.setEchoReconciliation true, .pushEvent (shellBytes .tx [0x6c, 0x73, 0x0d]),
    .pushEvent (shellBytes .rx [0x6c, 0x0d, 0x0d, 0x0a, 0x73, 0x0d]),
    .pushEvent (shellBytes .rx [0x0a, 0x6f]), .pushEvent (shellBytes .tx [0x61, 0x62]),
    .pushEvent (shellBytes .rx [0x61])]

example : ((callAll quietLabels 16 wrappedEcho).run.run new).1.isOk = true := by decide +kernel

end TerminalStreamParser

end SerialPlatform.Display
