import SerialPlatform.TerminalStream

/-!
# Runs of the parser

A parser's calls all return, unless the terminal is fed a tab at a full row; from
that byte it never returns.  Any sender can bring this about: a full row of
printable characters and a tab.
-/

namespace SerialPlatform.Display

open TerminalText FallibleState

namespace TerminalStreamParser

example : csiNumber [0x31, 0x3f, 0x32] = 12 := by decide +kernel

/-- The bytes fed meanwhile. -/
def Fed (good : List (TerminalText × UInt8) → Prop) (parser parser' : TerminalStreamParser) : Prop :=
  ∃ more, parser'.fed = parser.fed ++ more ∧ good more

/-- No byte of these is a tab at a full row. -/
def NoTab (more : List (TerminalText × UInt8)) : Prop :=
  ∀ entry ∈ more, ¬ TabAtFullRow entry.1 entry.2

/-- From a reachable terminal the act returns with a reachable one, or has fed it a
tab at a full row. -/
def Projects {α : Type} (act : Act α) : Prop :=
  ∀ parser : TerminalStreamParser, Reachable parser.terminal →
    Ends act parser (fun _ parser' => Reachable parser'.terminal ∧ Fed NoTab parser parser')
      (fun _ parser' => Fed (fun more => ¬ NoTab more) parser parser')

namespace Projects

variable {α β : Type} {act act' : Act α}

theorem of_pure (a : α) : Projects (pure a : Act α) := by
  intro parser h
  exact ⟨h, [], by simp, by simp [NoTab]⟩

theorem of_get : Projects (get : Act TerminalStreamParser) := by
  intro parser h
  exact ⟨h, [], by simp, by simp [NoTab]⟩

theorem of_modify {f : TerminalStreamParser → TerminalStreamParser}
    (hterminal : ∀ parser, Reachable parser.terminal → Reachable (f parser).terminal)
    (hfed : ∀ parser, (f parser).fed = parser.fed) : Projects (modify f : Act PUnit) := by
  intro parser h
  exact ⟨hterminal parser h, [], by simp [hfed], by simp [NoTab]⟩

theorem of_bind {f : α → Act β} (hact : Projects act) (hf : ∀ a, Projects (f a)) :
    Projects (act >>= f) := by
  intro parser h
  refine (hact parser h).bind (fun a parser' h' => ?_) (fun _ _ h' => h')
  obtain ⟨hreachable, more, hmore, hgood⟩ := h'
  refine (hf a parser' hreachable).mono ?_ ?_
  · rintro b parser'' ⟨hreachable', more', hmore', hgood'⟩
    refine ⟨hreachable', more ++ more', by rw [hmore', hmore, List.append_assoc], ?_⟩
    intro entry hentry
    rcases List.mem_append.mp hentry with hentry | hentry
    · exact hgood entry hentry
    · exact hgood' entry hentry
  · rintro _ parser'' ⟨more', hmore', hbad⟩
    refine ⟨more ++ more', by rw [hmore', hmore, List.append_assoc], fun hall => hbad ?_⟩
    intro entry hentry
    exact hall entry (List.mem_append_right _ hentry)

theorem of_ite {c : Prop} [Decidable c] (h : Projects act) (h' : Projects act') :
    Projects (if c then act else act') := by
  by_cases hc : c
  · rw [if_pos hc]
    exact h
  · rw [if_neg hc]
    exact h'

theorem of_discard (h : Projects act) : Projects (discard act) :=
  of_bind h (fun _ => of_pure _)

end Projects

/-! ## The acts -/

section
variable (turns : ℕ) (incoming : LineContext)

theorem projects_consumeByte (byte : UInt8) : Projects (consumeByte (turns + 16) byte) := by
  intro parser h
  have hready : Reachable { parser.terminal with rows := [] } := h.collected
  unfold consumeByte
  simp only [ends_bind, ends_get, ends_modify]
  by_cases htab : TabAtFullRow parser.terminal byte
  · rw [consume_hangs hready.bounded htab (turns + 16)]
    refine ⟨[(parser.terminal, byte)], rfl, fun hall => ?_⟩
    exact hall _ List.mem_cons_self htab
  · obtain ⟨terminal, hrun, hsteps⟩ := consume_returns hready.bounded htab
    rw [hrun turns]
    simp only [ends_bind, ends_modify, ends_pure]
    refine ⟨hready.consume (.of_turns hrun), [(parser.terminal, byte)], rfl, ?_⟩
    intro entry hentry
    rw [List.mem_singleton.mp hentry]
    exact htab

theorem projects_finishRows : Projects (finishRows (turns + 16)) := by
  intro parser h
  have hready : Reachable { parser.terminal with rows := [] } := h.collected
  obtain ⟨terminal, hrun, hsteps⟩ := finishInput_returns hready.bounded
  unfold finishRows
  simp only [ends_bind, ends_get]
  rw [hrun turns]
  simp only [ends_bind, ends_modify, ends_pure]
  exact ⟨hready.finishInput (.of_turns hrun), [], by simp, by simp [NoTab]⟩

theorem projects_showRows (rows : List ProjectedRow) : Projects (showRows incoming rows) :=
  .of_bind .of_get fun _ => .of_bind (.of_modify (fun _ h => h) (fun _ => rfl)) fun _ => .of_pure _

theorem projects_commitPendingRow : Projects (commitPendingRow (turns + 16) incoming) :=
  .of_bind (.of_modify (fun _ h => h) (fun _ => rfl)) fun _ =>
    .of_bind (projects_consumeByte turns _) fun rows => projects_showRows incoming rows

theorem projects_feedVisibleByte (byte : UInt8) :
    Projects (feedVisibleByte (turns + 16) incoming byte) := by
  unfold feedVisibleByte
  apply Projects.of_bind .of_get
  intro parser
  apply Projects.of_bind (.of_ite (projects_commitPendingRow turns incoming) (.of_pure _))
  intro committed
  apply Projects.of_bind (projects_consumeByte turns byte)
  intro rows
  refine Projects.of_bind (.of_modify (fun _ h => h) (fun _ => rfl)) fun _ => ?_
  apply Projects.of_ite (.of_pure _)
  exact .of_bind (projects_showRows incoming rows) fun _ => .of_pure _

theorem projects_feedVisibleBytes (bytes : Bytes) :
    Projects (feedVisibleBytes (turns + 16) incoming bytes) := by
  induction bytes with
  | nil => exact .of_pure _
  | cons byte rest ih =>
      apply Projects.of_bind (projects_feedVisibleByte turns incoming byte)
      intro lines
      exact .of_bind ih fun _ => .of_pure _

theorem projects_replayBufferedRx (replay : Bytes) :
    Projects (replayBufferedRx (turns + 16) replay incoming) := by
  unfold replayBufferedRx
  apply Projects.of_bind .of_get
  intro parser
  refine Projects.of_bind (.of_modify (fun _ h => h) (fun _ => rfl)) fun _ => ?_
  apply Projects.of_bind (.of_ite (projects_commitPendingRow turns _) (.of_pure _))
  intro committed
  exact .of_bind (projects_feedVisibleBytes turns _ replay) fun _ => .of_pure _

theorem projects_replayEchoCandidate : Projects (replayEchoCandidate (turns + 16)) := by
  unfold replayEchoCandidate
  apply Projects.of_bind .of_get
  intro parser
  refine Projects.of_bind (.of_modify (fun _ h => h) (fun _ => rfl)) fun _ => ?_
  split
  · exact .of_pure _
  · exact .of_pure _
  · exact projects_replayBufferedRx turns _ _

theorem projects_flush : Projects (flush (turns + 16)) := by
  unfold flush
  apply Projects.of_bind (projects_replayEchoCandidate turns)
  intro lines
  apply Projects.of_bind (projects_finishRows turns)
  intro rows
  apply Projects.of_bind .of_get
  intro parser
  refine Projects.of_bind (.of_modify (fun _ _ => .default) (fun _ => rfl)) fun _ => ?_
  split
  · exact .of_pure _
  · exact .of_pure _

/-- Steps on the other fields of the parser. -/
theorem projects_projectByte (direction : Direction) (byte : UInt8) :
    Projects (projectByte (turns + 16) direction incoming byte) := by
  have hreconciled (parser : TerminalStreamParser) :
      (parser.reconcileRxByte byte incoming).2.terminal = parser.terminal ∧
        (parser.reconcileRxByte byte incoming).2.fed = parser.fed := by
    unfold reconcileRxByte
    split
    · exact ⟨rfl, rfl⟩
    split
    · exact ⟨rfl, rfl⟩
    split
    · exact ⟨rfl, rfl⟩
    · simp only
      split <;> exact ⟨rfl, rfl⟩
  unfold projectByte
  apply Projects.of_ite
  · intro parser h
    simp only [ends_bind, ends_get, ends_modify]
    have hreachable : Reachable (parser.reconcileRxByte byte incoming).2.terminal := by
      rw [(hreconciled parser).1]
      exact h
    have hfed := (hreconciled parser).2
    have hlift {act : Act (List DisplayLine)} (hrest : Projects act) :
        Ends act (parser.reconcileRxByte byte incoming).2
          (fun _ parser' => Reachable parser'.terminal ∧ Fed NoTab parser parser')
          (fun _ parser' => Fed (fun more => ¬ NoTab more) parser parser') := by
      refine (hrest _ hreachable).mono ?_ ?_
      · rintro lines parser' ⟨hreachable', more, hmore, hgood⟩
        exact ⟨hreachable', more, by rw [hmore, hfed], hgood⟩
      · rintro _ parser' ⟨more, hmore, hbad⟩
        exact ⟨more, by rw [hmore, hfed], hbad⟩
    cases (parser.reconcileRxByte byte incoming).1 with
    | suppressed expectationComplete =>
        refine hlift (.of_bind (.of_modify (fun parser h => ?_) (fun parser => ?_))
          fun _ => .of_pure _)
        · split_ifs <;> exact h
        · split_ifs <;> rfl
    | visible bytes => exact hlift (projects_feedVisibleBytes turns incoming _)
  · apply Projects.of_ite
    · exact projects_feedVisibleBytes turns incoming _
    · exact projects_feedVisibleByte turns incoming byte

theorem projects_projectBytes (direction : Direction) (bytes : Bytes) :
    Projects (projectBytes (turns + 16) direction incoming bytes) := by
  induction bytes with
  | nil => exact .of_pure _
  | cons byte rest ih =>
      apply Projects.of_bind (projects_projectByte turns incoming direction byte)
      intro lines
      exact .of_bind ih fun _ => .of_pure _

theorem projects_replayAbandoned : Projects (replayAbandoned (turns + 16) incoming) := by
  unfold replayAbandoned
  apply Projects.of_bind .of_get
  intro parser
  apply Projects.of_ite (.of_pure _)
  exact .of_bind (.of_modify (fun _ h => h) (fun _ => rfl)) fun _ =>
    projects_replayBufferedRx turns incoming _

theorem projects_pushEvent (labels : Labels) (event : TimelineEvent) :
    Projects (pushEvent labels (turns + 16) event) := by
  unfold pushEvent
  apply Projects.of_bind .of_get
  intro parser
  apply Projects.of_ite
  · apply Projects.of_ite
    · exact .of_bind (projects_flush turns) fun _ => .of_pure _
    · exact .of_pure _
  · apply Projects.of_bind (.of_ite (projects_flush turns) (.of_pure _))
    intro flushed
    apply Projects.of_bind (projects_replayAbandoned turns _)
    intro replayed
    refine .of_bind (.of_modify (fun parser h => ?_) (fun parser => ?_)) fun _ => ?_
    · unfold adoptContext
      split
      · exact h
      · split_ifs <;> exact h
    · unfold adoptContext
      split
      · rfl
      · split_ifs <;> rfl
    refine .of_bind (.of_modify (fun parser h => ?_) (fun parser => ?_)) fun _ => ?_
    · unfold expectEcho
      simp only
      split_ifs <;> exact h
    · unfold expectEcho
      simp only
      split_ifs <;> rfl
    apply Projects.of_bind (projects_projectBytes turns _ _ _)
    intro shown
    exact .of_bind .of_get fun _ => .of_pure _

theorem projects_call (labels : Labels) (what : Call) :
    Projects (call labels (turns + 16) what) := by
  cases what with
  | setEchoReconciliation enabled =>
      refine .of_modify (fun parser h => ?_) (fun parser => ?_)
      · unfold setEchoReconciliation
        split_ifs <;> exact h
      · unfold setEchoReconciliation
        split_ifs <;> rfl
  | pushEvent event => exact .of_discard (projects_pushEvent turns labels event)
  | flush => exact .of_discard (projects_flush turns)
  | reset => exact .of_modify (fun _ _ => .default) (fun _ => rfl)

theorem projects_callAll (labels : Labels) (calls : List Call) :
    Projects (callAll labels (turns + 16) calls) := by
  induction calls with
  | nil => exact .of_pure _
  | cons first rest ih =>
      apply Projects.of_bind (projects_call turns labels first)
      intro _
      exact ih

end

/-- The calls of an owner all return, unless one of the bytes which the terminal is
fed is a tab at a full row. -/
theorem callAll_returns_iff (labels : Labels) (calls : List Call) (turns : ℕ) :
    ((callAll labels (turns + 16) calls).run.run new).1 = .ok () ↔
      NoTab ((callAll labels (turns + 16) calls).run.run new).2.fed := by
  have hends := projects_callAll turns labels calls new .default
  rcases hrun : (callAll labels (turns + 16) calls).run.run new with ⟨_ | _, parser⟩
  · obtain ⟨more, hmore, hbad⟩ := hends.run_error hrun
    have hfed : parser.fed = more := hmore
    simp only [reduceCtorEq, false_iff]
    rw [hfed]
    exact hbad
  · obtain ⟨-, more, hmore, hgood⟩ := hends.run hrun
    have hfed : parser.fed = more := hmore
    simp only [true_iff]
    rw [hfed]
    exact hgood

end TerminalStreamParser

open TerminalStreamParser

/-- Every byte of a reachable terminal returns, with at most three rows and all buffers
within their limits, exactly when it is no tab at a full row; and the calls of a
parser return exactly when they feed the terminal no such tab. -/
theorem projection_returns_iff (labels : Labels) (calls : List Call) (turns : ℕ) :
    (∀ t, Reachable t → ∀ byte,
      (∃ t', Returns (consume byte t) t' ∧ Within t t') ↔ ¬ TabAtFullRow t byte) ∧
    (((callAll labels (turns + 16) calls).run.run new).1 = .ok () ↔
      NoTab ((callAll labels (turns + 16) calls).run.run new).2.fed) :=
  ⟨fun _ h byte => consume_returns_iff h byte, callAll_returns_iff labels calls turns⟩

/-! ## A device which hangs the console -/

/-- So many letters on a new terminal. -/
def lettersTyped (count : ℕ) : TerminalText :=
  { TerminalText.default with
    line := List.replicate count 'a'
    cursor := count
    touched := decide (0 < count) }

theorem put_lettersTyped (count : ℕ) : (lettersTyped count).put 'a' = lettersTyped (count + 1) := by
  simp [TerminalText.put, lettersTyped, List.replicate_succ']

theorem reachable_lettersTyped {count : ℕ} (hcount : count ≤ maxStreamLineChars) :
    Reachable (lettersTyped count) := by
  induction count with
  | zero => exact .default
  | succ count ih =>
      have hroom : (lettersTyped count).cursor < maxStreamLineChars := hcount
      have hwrite (turns : ℕ) : writeChar 'a' (lettersTyped count) (turns + 1) =
          some ((lettersTyped count).put 'a') := by
        rw [writeChar, if_neg (not_le.mpr hroom)]
      rw [put_lettersTyped] at hwrite
      have hconsume (turns : ℕ) : consume 0x61 (lettersTyped count) (turns + 1) =
          some (lettersTyped (count + 1)) := hwrite turns
      exact (ih hroom.le).consume (.of_turns hconsume)

/-- After a full row of letters a tab never returns. -/
theorem tab_hangs_full_row : Reachable (lettersTyped maxStreamLineChars) ∧
    ∀ turns, consume 0x09 (lettersTyped maxStreamLineChars) turns = none := by
  have hreachable := reachable_lettersTyped (le_refl maxStreamLineChars)
  exact ⟨hreachable, consume_hangs hreachable.bounded ⟨rfl, by decide, rfl⟩⟩

end SerialPlatform.Display
