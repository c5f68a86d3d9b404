import SerialPlatform.TerminalText

/-!
# The bounds of the projection

A byte moves the cursor by at most one row, and the row it writes stays within its
limit, whatever is left of a broken character.  Only a tab at a full row never ends:
writing its first blank starts a new row, so that the cursor does not pass the tab
stop behind the row.
-/

namespace SerialPlatform.Display.TerminalText

open Utf8Scan

/-! ## Rows -/

/-- From one state to another with at most `count` rows finished. -/
structure Writes (count : ℕ) (t t' : TerminalText) : Prop where
  rows : ∃ finished, t'.rows = t.rows ++ finished ∧ finished.length ≤ count
  cursor : t'.cursor ≤ maxStreamLineChars
  line : t'.line.length ≤ maxStreamLineChars
  escape : t'.escape = t.escape
  csiParameters : t'.csiParameters = t.csiParameters
  escapePayloadBytes : t'.escapePayloadBytes = t.escapePayloadBytes

namespace Writes

variable {a b : ℕ} {t t' t'' : TerminalText}

theorem refl (hcursor : t.cursor ≤ maxStreamLineChars)
    (hline : t.line.length ≤ maxStreamLineChars) : Writes a t t :=
  ⟨⟨[], by simp, Nat.zero_le _⟩, hcursor, hline, rfl, rfl, rfl⟩

theorem trans (h : Writes a t t') (h' : Writes b t' t'') : Writes (a + b) t t'' := by
  obtain ⟨finished, hrows, hcount⟩ := h.rows
  obtain ⟨finished', hrows', hcount'⟩ := h'.rows
  refine ⟨⟨finished ++ finished', ?_, ?_⟩, h'.cursor, h'.line, h'.escape.trans h.escape,
    h'.csiParameters.trans h.csiParameters, h'.escapePayloadBytes.trans h.escapePayloadBytes⟩
  · rw [hrows', hrows, List.append_assoc]
  · rw [List.length_append]
    omega

theorem mono (h : Writes a t t') (hle : a ≤ b) : Writes b t t' := by
  obtain ⟨finished, hrows, hcount⟩ := h.rows
  exact ⟨⟨finished, hrows, hcount.trans hle⟩, h.cursor, h.line, h.escape, h.csiParameters,
    h.escapePayloadBytes⟩

end Writes

section
variable {t : TerminalText}

theorem length_put (character : Char) (hcursor : t.cursor < maxStreamLineChars)
    (hline : t.line.length ≤ maxStreamLineChars) :
    (t.put character).line.length ≤ maxStreamLineChars := by
  unfold put
  simp only
  split_ifs with hinside
  · simp only [List.length_set, List.length_append, List.length_replicate]
    omega
  · simp only [List.length_append, List.length_replicate, List.length_singleton] at hinside ⊢
    omega

theorem writes_put (character : Char) (hcursor : t.cursor < maxStreamLineChars)
    (hline : t.line.length ≤ maxStreamLineChars) : Writes 0 t (t.put character) :=
  ⟨⟨[], by simp [put], le_refl _⟩, hcursor, length_put character hcursor hline, rfl, rfl, rfl⟩

theorem writes_pushRow : Writes 1 t t.pushRow :=
  ⟨⟨[_], rfl, le_refl _⟩, Nat.zero_le _, Nat.zero_le _, rfl, rfl, rfl⟩

/-- A row continued behind its limit. -/
def continued (t : TerminalText) : TerminalText := { t.pushRow with continuesPrevious := true }

theorem writes_continued : Writes 1 t t.continued :=
  ⟨⟨[_], rfl, le_refl _⟩, Nat.zero_le _, Nat.zero_le _, rfl, rfl, rfl⟩

/-- A character, when no broken one stands before it. -/
def written (t : TerminalText) (character : Char) : TerminalText :=
  if maxStreamLineChars ≤ t.cursor then t.continued.put character else t.put character

/-- The rest of a broken character is written as a replacement. -/
def flushed (t : TerminalText) : TerminalText :=
  if t.utf8 = [] then t else { t with utf8 := [] }.written replacement

theorem utf8_written (character : Char) : (t.written character).utf8 = t.utf8 := by
  unfold written
  split_ifs <;> rfl

theorem utf8_flushed : t.flushed.utf8 = [] := by
  unfold flushed
  split_ifs with hempty
  · exact hempty
  · exact utf8_written _

theorem writes_written (character : Char) (hline : t.line.length ≤ maxStreamLineChars) :
    Writes 1 t (t.written character) := by
  unfold written
  split_ifs with hfull
  · have hnew : t.continued.cursor < maxStreamLineChars := by
      change 0 < maxStreamLineChars
      decide
    exact writes_continued.trans (writes_put character hnew (Nat.zero_le _))
  · exact (writes_put character (not_le.mp hfull) hline).mono (Nat.zero_le _)

theorem writes_flushed (hcursor : t.cursor ≤ maxStreamLineChars)
    (hline : t.line.length ≤ maxStreamLineChars) : Writes 1 t t.flushed := by
  unfold flushed
  split_ifs
  · exact .refl hcursor hline
  · have hwritten := writes_written (t := { t with utf8 := [] }) replacement hline
    exact ⟨hwritten.rows, hwritten.cursor, hwritten.line, hwritten.escape,
      hwritten.csiParameters, hwritten.escapePayloadBytes⟩

end

/-! ## Turns -/

/-- With one turn more the four methods return what they returned. -/
theorem more_turns (turns : ℕ) :
    (∀ finalize t t', drainUtf8 finalize t turns = some t' →
      drainUtf8 finalize t (turns + 1) = some t') ∧
    (∀ characters t t', writeChars characters t turns = some t' →
      writeChars characters t (turns + 1) = some t') ∧
    (∀ character t t', writeChar character t turns = some t' →
      writeChar character t (turns + 1) = some t') ∧
    (∀ t t', commitRow t turns = some t' → commitRow t (turns + 1) = some t') := by
  induction turns with
  | zero => simp [drainUtf8, writeChars, writeChar, commitRow]
  | succ turns ih =>
      obtain ⟨hdrain, hchars, hchar, hcommit⟩ := ih
      refine ⟨fun finalize t t' h => ?_, fun characters t t' h => ?_, fun character t t' h => ?_,
        fun t t' h => ?_⟩
      · rw [drainUtf8] at h ⊢
        by_cases hend : (Utf8Scan.scan t.utf8).stop = .atEnd
        · rw [if_pos hend] at h ⊢
          exact hchars _ _ _ h
        rw [if_neg hend] at h ⊢
        by_cases hvalid : 0 < (Utf8Scan.scan t.utf8).validUpTo
        · rw [if_pos hvalid] at h ⊢
          obtain ⟨t₁, hwrite, hrest⟩ := Option.bind_eq_some_iff.mp h
          exact Option.bind_eq_some_iff.mpr ⟨t₁, hchars _ _ _ hwrite, hdrain _ _ _ hrest⟩
        rw [if_neg hvalid] at h ⊢
        cases hstop : (Utf8Scan.scan t.utf8).stop with
        | atEnd => exact absurd hstop hend
        | atInvalid length =>
            simp only [hstop] at h ⊢
            obtain ⟨t₁, hwrite, hrest⟩ := Option.bind_eq_some_iff.mp h
            exact Option.bind_eq_some_iff.mpr ⟨t₁, hchar _ _ _ hwrite, hdrain _ _ _ hrest⟩
        | atIncomplete =>
            simp only [hstop] at h ⊢
            by_cases hfinal : finalize = true
            · rw [if_pos hfinal] at h ⊢
              exact hchar _ _ _ h
            · rw [if_neg hfinal] at h ⊢
              exact h
      · cases characters with
        | nil => exact h
        | cons character rest =>
            rw [writeChars] at h ⊢
            obtain ⟨t₁, hwrite, hrest⟩ := Option.bind_eq_some_iff.mp h
            exact Option.bind_eq_some_iff.mpr ⟨t₁, hchar _ _ _ hwrite, hchars _ _ _ hrest⟩
      · rw [writeChar] at h ⊢
        by_cases hfull : maxStreamLineChars ≤ t.cursor
        · rw [if_pos hfull] at h ⊢
          obtain ⟨t₁, hrow, hrest⟩ := Option.bind_eq_some_iff.mp h
          exact Option.bind_eq_some_iff.mpr ⟨t₁, hcommit _ _ hrow, hrest⟩
        · rw [if_neg hfull] at h ⊢
          exact h
      · rw [commitRow] at h ⊢
        obtain ⟨t₁, hrow, hrest⟩ := Option.bind_eq_some_iff.mp h
        exact Option.bind_eq_some_iff.mpr ⟨t₁, hdrain _ _ _ hrow, hrest⟩

theorem drainUtf8_more {finalize : Bool} {t t' : TerminalText} {turns : ℕ}
    (h : drainUtf8 finalize t turns = some t') (more : ℕ) :
    drainUtf8 finalize t (turns + more) = some t' := by
  induction more with
  | zero => exact h
  | succ more ih => exact (more_turns (turns + more)).1 _ _ _ ih

theorem writeChar_more {character : Char} {t t' : TerminalText} {turns : ℕ}
    (h : writeChar character t turns = some t') (more : ℕ) :
    writeChar character t (turns + more) = some t' := by
  induction more with
  | zero => exact h
  | succ more ih => exact (more_turns (turns + more)).2.2.1 _ _ _ ih

/-! ## What the circle of methods does -/

/-- One character which is not finished, or never will be. -/
def Broken (bytes : Bytes) : Prop :=
  bytes ≠ [] ∧ (head bytes = .incomplete ∨ head bytes = .invalid bytes.length)

section
variable {t : TerminalText} (turns : ℕ)

theorem drainUtf8_empty (finalize : Bool) (hempty : t.utf8 = []) :
    drainUtf8 finalize t (turns + 2) = some t := by
  have hsame : ({ t with utf8 := [] } : TerminalText) = t := by
    rw [← hempty]
  rw [drainUtf8, hempty, scan_nil]
  simp only [if_true]
  rw [hsame]
  rfl

theorem commitRow_empty (hempty : t.utf8 = []) :
    commitRow t (turns + 3) = some t.pushRow := by
  rw [commitRow, drainUtf8_empty turns true hempty]
  rfl

theorem writeChar_empty (character : Char) (hempty : t.utf8 = []) :
    writeChar character t (turns + 4) = some (t.written character) := by
  rw [writeChar, commitRow_empty turns hempty]
  unfold written
  split_ifs <;> rfl

theorem drainUtf8_invalid (finalize : Bool) (hinvalid : head t.utf8 = .invalid t.utf8.length) :
    drainUtf8 finalize t (turns + 6) = some ({ t with utf8 := [] }.written replacement) := by
  have hwritten := writeChar_empty (t := { t with utf8 := [] }) (turns + 1) replacement rfl
  have hdone := drainUtf8_empty (t := { t with utf8 := [] }.written replacement) (turns + 3)
    finalize (utf8_written _)
  rw [drainUtf8, scan_invalid hinvalid]
  simp only [reduceCtorEq, if_false, lt_irrefl, List.drop_length]
  rw [hwritten]
  exact hdone

theorem drainUtf8_broken (hbroken : Broken t.utf8) :
    drainUtf8 true t (turns + 6) = some ({ t with utf8 := [] }.written replacement) := by
  obtain ⟨hsome, hincomplete | hinvalid⟩ := hbroken
  · have hwritten := writeChar_empty (t := { t with utf8 := [] }) (turns + 1) replacement rfl
    rw [drainUtf8, scan_incomplete hsome hincomplete]
    simp only [reduceCtorEq, if_false, lt_irrefl, if_true]
    exact hwritten
  · exact drainUtf8_invalid turns true hinvalid

theorem drainUtf8_flushed (h : t.utf8 = [] ∨ Broken t.utf8) :
    drainUtf8 true t (turns + 6) = some t.flushed := by
  unfold flushed
  rcases h with hempty | hbroken
  · rw [if_pos hempty]
    exact drainUtf8_empty (turns + 4) true hempty
  · rw [if_neg hbroken.1]
    exact drainUtf8_broken turns hbroken

theorem commitRow_flushed (h : t.utf8 = [] ∨ Broken t.utf8) :
    commitRow t (turns + 7) = some t.flushed.pushRow := by
  rw [commitRow, drainUtf8_flushed turns h]
  rfl

end

section
variable {t : TerminalText}

/-- A character in front of the rest of a broken one. -/
theorem writeChar_before (character : Char)
    (h : t.utf8 = [] ∨ Broken t.utf8) (hcursor : t.cursor ≤ maxStreamLineChars)
    (hline : t.line.length ≤ maxStreamLineChars) :
    ∃ t', (∀ turns, writeChar character t (turns + 8) = some t') ∧ Writes 2 t t' ∧
      (t'.utf8 = [] ∨ t'.utf8 = t.utf8) := by
  by_cases hfull : maxStreamLineChars ≤ t.cursor
  · have hnew : t.flushed.continued.cursor < maxStreamLineChars := by
      change 0 < maxStreamLineChars
      decide
    refine ⟨t.flushed.continued.put character, fun turns => ?_, ?_, .inl utf8_flushed⟩
    · rw [writeChar, commitRow_flushed turns h, if_pos hfull]
      rfl
    · exact ((writes_flushed hcursor hline).trans writes_continued).trans
        (writes_put character hnew (Nat.zero_le _))
  · refine ⟨t.put character, fun turns => ?_, ?_, .inr rfl⟩
    · rw [writeChar, if_neg hfull]
    · exact (writes_put character (not_le.mp hfull) hline).mono (Nat.zero_le _)

/-- The buffer of an unfinished character and one more byte. -/
theorem drainUtf8_snoc {pending : Bytes} {byte : UInt8} (hpending : head pending = .incomplete)
    (hbyte : 0x80 ≤ byte)
    (hutf8 : t.utf8 = pending ++ [byte]) (hcursor : t.cursor ≤ maxStreamLineChars)
    (hline : t.line.length ≤ maxStreamLineChars) :
    ∃ t', (∀ turns, drainUtf8 false t (turns + 16) = some t') ∧ Writes 3 t t' ∧
      head t'.utf8 = .incomplete := by
  have hsome : t.utf8 ≠ [] := by simp [hutf8]
  have hchar (value : Char) (h : head t.utf8 = .char value t.utf8.length) (turns : ℕ) :
      drainUtf8 false t (turns + 16) = some ({ t with utf8 := [] }.written value) := by
    have hwritten := writeChar_empty (t := { t with utf8 := [] }) (turns + 10) value rfl
    rw [drainUtf8, scan_char h]
    simp only [if_true]
    rw [writeChars, hwritten]
    rfl
  have hclean (character : Char) :
      Writes 3 t ({ t with utf8 := [] }.written character) ∧
        head ({ t with utf8 := [] }.written character).utf8 = .incomplete := by
    have hwritten := writes_written (t := { t with utf8 := [] }) character hline
    refine ⟨⟨?_, hwritten.cursor, hwritten.line, hwritten.escape, hwritten.csiParameters,
      hwritten.escapePayloadBytes⟩, ?_⟩
    · obtain ⟨finished, hrows, hcount⟩ := hwritten.rows
      exact ⟨finished, hrows, hcount.trans (by omega)⟩
    · rw [utf8_written]
      rfl
  have hopen (h : head t.utf8 = .incomplete) (turns : ℕ) :
      drainUtf8 false t (turns + 16) = some t := by
    rw [drainUtf8, scan_incomplete hsome h]
    simp
  by_cases hfirst : pending = []
  · subst hfirst
    rw [List.nil_append] at hutf8
    have hlength : t.utf8.length = 1 := by rw [hutf8]; rfl
    rcases head_high hbyte with h | h
    · rw [← hutf8] at h
      exact ⟨t, hopen h, .refl hcursor hline, h⟩
    · rw [← hutf8] at h
      have hinvalid : head t.utf8 = .invalid t.utf8.length := by
        rw [hlength]
        exact h
      exact ⟨_, fun turns => drainUtf8_invalid (turns + 10) false hinvalid, hclean replacement⟩
  · rcases head_snoc byte hfirst hpending with ⟨value, h⟩ | h | h
    · rw [← hutf8] at h
      exact ⟨_, hchar value h, hclean value⟩
    · rw [← hutf8] at h
      exact ⟨t, hopen h, .refl hcursor hline, h⟩
    · rw [← hutf8] at h
      -- the byte starts a character of its own, or is broken too
      have hdrop : t.utf8.drop pending.length = [byte] := by simp [hutf8]
      have hrest : ([byte] : Bytes) ≠ [] := by simp
      have hlast : Broken [byte] := ⟨hrest, head_high hbyte⟩
      obtain ⟨t', hwrite, hwrites, hutf8'⟩ := writeChar_before
        (t := { t with utf8 := [byte] }) replacement (.inr hlast) hcursor hline
      have hwrites' : Writes 2 t t' := ⟨hwrites.rows, hwrites.cursor, hwrites.line,
        hwrites.escape, hwrites.csiParameters, hwrites.escapePayloadBytes⟩
      have hdrain (turns : ℕ) :
          drainUtf8 false t (turns + 16) = drainUtf8 false t' (turns + 15) := by
        rw [drainUtf8, scan_invalid h]
        simp only [reduceCtorEq, if_false, lt_irrefl, hdrop]
        rw [hwrite (turns + 7)]
        rfl
      rcases hutf8' with hempty | hkept
      · refine ⟨t', fun turns => ?_, hwrites'.mono (by omega), ?_⟩
        · rw [hdrain]
          exact drainUtf8_empty (turns + 13) false hempty
        · rw [hempty]
          rfl
      · change t'.utf8 = [byte] at hkept
        rcases head_high hbyte with hopen' | hinvalid
        · refine ⟨t', fun turns => ?_, hwrites'.mono (by omega), by rw [hkept]; exact hopen'⟩
          rw [hdrain, drainUtf8, hkept, scan_incomplete hrest hopen']
          simp
        · have hlength : t'.utf8.length = 1 := by rw [hkept]; rfl
          have hlast' : head t'.utf8 = .invalid t'.utf8.length := by
            rw [hlength, hkept]
            exact hinvalid
          refine ⟨_, fun turns => (hdrain turns).trans (drainUtf8_invalid (turns + 9) false hlast'),
            ?_, by rw [utf8_written]; rfl⟩
          have hmore := writes_written (t := { t' with utf8 := [] }) replacement hwrites'.line
          have hmore' : Writes 1 t' ({ t' with utf8 := [] }.written replacement) :=
            ⟨hmore.rows, hmore.cursor, hmore.line, hmore.escape, hmore.csiParameters,
              hmore.escapePayloadBytes⟩
          exact hwrites'.trans hmore'

/-! ## The loop of a tab -/

theorem utf8_put (character : Char) : (t.put character).utf8 = t.utf8 := rfl

/-- A tab stop inside the row is reached without finishing a row. -/
theorem tabTo_inside {nextTab : ℕ} (hnext : nextTab ≤ maxStreamLineChars) (hempty : t.utf8 = [])
    (hcursor : t.cursor ≤ maxStreamLineChars) (hline : t.line.length ≤ maxStreamLineChars) :
    ∃ t', (∀ turns, tabTo nextTab t (turns + (nextTab - t.cursor) + 5) = some t') ∧
      Writes 0 t t' ∧ t'.utf8 = [] := by
  induction hleft : nextTab - t.cursor generalizing t with
  | zero =>
      refine ⟨t, fun turns => ?_, .refl hcursor hline, hempty⟩
      rw [tabTo, if_neg (by omega)]
  | succ left ih =>
      have hinside : t.cursor < maxStreamLineChars := by omega
      have hput := writes_put ' ' hinside hline
      have hleft' : nextTab - (t.put ' ').cursor = left := by
        change nextTab - (t.cursor + 1) = left
        omega
      obtain ⟨t', hrun, hwrites, hempty'⟩ :=
        ih ((utf8_put ' ').trans hempty) hput.cursor hput.line hleft'
      refine ⟨t', fun turns => ?_, hput.trans hwrites, hempty'⟩
      have hwrite : writeChar ' ' t (turns + left + 5) = some (t.put ' ') := by
        rw [writeChar, if_neg (not_le.mpr hinside)]
      have hsum : turns + (left + 1) + 5 = turns + left + 5 + 1 := by omega
      rw [hsum, tabTo, if_pos (by omega), hwrite]
      exact hrun turns

theorem writeChar_cases {character : Char} {turns : ℕ} {t' : TerminalText} (hempty : t.utf8 = [])
    (h : writeChar character t turns = some t') : t' = t.written character := by
  have hmore := writeChar_more h 4
  rw [writeChar_empty turns character hempty] at hmore
  exact (Option.some.inj hmore).symm

/-- A tab stop behind the row is never reached, however often the loop turns. -/
theorem tabTo_behind {nextTab : ℕ} (hnext : maxStreamLineChars < nextTab) (hempty : t.utf8 = [])
    (hcursor : t.cursor ≤ maxStreamLineChars) (hline : t.line.length ≤ maxStreamLineChars)
    (turns : ℕ) : tabTo nextTab t turns = none := by
  induction turns generalizing t with
  | zero => rfl
  | succ turns ih =>
      rw [tabTo, if_pos (by omega)]
      cases hwrite : writeChar ' ' t turns with
      | none => rfl
      | some t' =>
          have hwritten := writeChar_cases hempty hwrite
          have hwrites := writes_written (t := t) ' ' hline
          rw [← hwritten] at hwrites
          have hempty' : t'.utf8 = [] := by
            rw [hwritten, utf8_written]
            exact hempty
          exact ih hempty' hwrites.cursor hwrites.line

end

/-! ## Controls and escapes -/

def payloadLimit : EscapeState → ℕ
  | .escapeIntermediate => maxEscapeIntermediateBytes
  | _ => maxControlStringBytes

theorem payloadLimit_le (escape : EscapeState) : payloadLimit escape ≤ maxControlStringBytes := by
  cases escape <;> decide

/-- What holds between two bytes. -/
structure Bounded (t : TerminalText) : Prop where
  cursor : t.cursor ≤ maxStreamLineChars
  line : t.line.length ≤ maxStreamLineChars
  utf8 : head t.utf8 = .incomplete
  csiParameters : t.csiParameters.length ≤ maxCsiParameterBytes
  escapePayloadBytes : t.escapePayloadBytes ≤ payloadLimit t.escape

theorem bounded_default : Bounded default := by
  constructor <;> decide

/-- With at most `count` rows finished, the bounds hold again. -/
structure Steps (count : ℕ) (t t' : TerminalText) : Prop where
  rows : ∃ finished, t'.rows = t.rows ++ finished ∧ finished.length ≤ count
  bounded : Bounded t'

section
variable {a b : ℕ} {t t' t'' : TerminalText}

theorem Bounded.written (h : Bounded t) (hwrites : Writes a t t')
    (hutf8 : head t'.utf8 = .incomplete) : Bounded t' := by
  constructor
  · exact hwrites.cursor
  · exact hwrites.line
  · exact hutf8
  · rw [hwrites.csiParameters]
    exact h.csiParameters
  · rw [hwrites.escapePayloadBytes, hwrites.escape]
    exact h.escapePayloadBytes

theorem Steps.of_writes (h : Bounded t) (hwrites : Writes a t t')
    (hutf8 : head t'.utf8 = .incomplete) : Steps a t t' :=
  ⟨hwrites.rows, h.written hwrites hutf8⟩

theorem Steps.of_rows_eq (hrows : t'.rows = t.rows) (h : Bounded t') : Steps a t t' :=
  ⟨⟨[], by simp [hrows], Nat.zero_le _⟩, h⟩

theorem Steps.mono (h : Steps a t t') (hle : a ≤ b) : Steps b t t' := by
  obtain ⟨finished, hrows, hcount⟩ := h.rows
  exact ⟨⟨finished, hrows, hcount.trans hle⟩, h.bounded⟩

theorem Steps.trans (h : Steps a t t') (h' : Steps b t' t'') : Steps (a + b) t t'' := by
  obtain ⟨finished, hrows, hcount⟩ := h.rows
  obtain ⟨finished', hrows', hcount'⟩ := h'.rows
  refine ⟨⟨finished ++ finished', ?_, ?_⟩, h'.bounded⟩
  · rw [hrows', hrows, List.append_assoc]
  · rw [List.length_append]
    omega

theorem broken_of_bounded (h : Bounded t) : t.utf8 = [] ∨ Broken t.utf8 := by
  by_cases hempty : t.utf8 = []
  · exact .inl hempty
  · exact .inr ⟨hempty, .inl h.utf8⟩

theorem Bounded.flushed (h : Bounded t) : Steps 1 t t.flushed := by
  have hwrites := writes_flushed h.cursor h.line
  have hutf8 : head t.flushed.utf8 = .incomplete := by
    rw [utf8_flushed]
    rfl
  exact .of_writes h hwrites hutf8

theorem Bounded.resetEscape (h : Bounded t) : Bounded t.resetEscape :=
  ⟨h.cursor, h.line, h.utf8, Nat.zero_le _, Nat.zero_le _⟩

theorem Bounded.startCsi (h : Bounded t) : Bounded t.startCsi :=
  ⟨h.cursor, h.line, h.utf8, Nat.zero_le _, Nat.zero_le _⟩

theorem Bounded.startControlString (h : Bounded t) : Bounded t.startControlString :=
  ⟨h.cursor, h.line, h.utf8, h.csiParameters, Nat.zero_le _⟩

theorem length_fillBlank (line : List Char) {start stop : ℕ} (hstart : start ≤ line.length)
    (hstop : stop ≤ line.length) : (fillBlank line start stop).length = line.length := by
  simp only [fillBlank, List.length_append, List.length_take, List.length_replicate,
    List.length_drop]
  omega

/-- A control sequence moves the cursor inside the row and edits the row in place. -/
theorem Bounded.applyCsi (h : Bounded t) (finalByte : UInt8) (parameters : Bytes) :
    Steps a t (t.applyCsi finalByte parameters) := by
  have hrow : maxStreamLineChars - 1 ≤ maxStreamLineChars := Nat.sub_le _ _
  have hmoved (cursor : ℕ) (hcursor : cursor ≤ maxStreamLineChars) :
      Steps a t { t with cursor := cursor } :=
    .of_rows_eq rfl ⟨hcursor, h.line, h.utf8, h.csiParameters, h.escapePayloadBytes⟩
  have hedited (line : List Char) (hline : line.length ≤ maxStreamLineChars) :
      Steps a t { t with line := line } :=
    .of_rows_eq rfl ⟨h.cursor, hline, h.utf8, h.csiParameters, h.escapePayloadBytes⟩
  have hsame : Steps a t t := .of_rows_eq rfl h
  have hlong := h.line
  unfold TerminalText.applyCsi
  extract_lets first start stop
  clear_value first
  split
  · split
    · apply hedited
      simp only [List.length_take]
      omega
    · apply hedited
      rw [length_fillBlank _ (Nat.zero_le _) (min_le_right _ _)]
      exact h.line
    · exact hedited [] (Nat.zero_le _)
    · exact hsame
  · exact hmoved _ ((min_le_right _ _).trans hrow)
  · exact hmoved _ ((min_le_right _ _).trans hrow)
  · exact hmoved _ ((min_le_right _ _).trans hrow)
  · exact hmoved _ ((min_le_right _ _).trans hrow)
  · exact hmoved _ ((Nat.sub_le _ _).trans h.cursor)
  · have hsmall : start ≤ u64Max := by
      have hbound : maxStreamLineChars ≤ u64Max := by decide
      exact ((min_le_right _ _).trans h.line).trans hbound
    have hstop : start ≤ stop := le_min (le_satAdd _ hsmall) (min_le_right _ _)
    apply hedited
    simp only [List.length_append, List.length_take, List.length_drop]
    omega
  · apply hedited
    simp only [List.length_take]
    omega
  · apply hedited
    rw [length_fillBlank _ (min_le_right _ _) (min_le_right _ _)]
    exact h.line
  · exact hmoved _ ((min_le_right _ _).trans hrow)
  · exact hmoved _ ((min_le_right _ _).trans hrow)
  · exact hsame

/-! ## One byte -/

theorem consumePlain_high {byte : UInt8} (h : Bounded t) (hbyte : 0x80 ≤ byte) :
    ∃ t', (∀ turns, consumePlain byte t (turns + 16) = some t') ∧ Steps 3 t t' := by
  obtain ⟨t', hdrain, hwrites, hutf8⟩ := drainUtf8_snoc (t := { t with utf8 := t.utf8 ++ [byte] })
    h.utf8 hbyte rfl h.cursor h.line
  have hwrites' : Writes 3 t t' := ⟨hwrites.rows, hwrites.cursor, hwrites.line, hwrites.escape,
    hwrites.csiParameters, hwrites.escapePayloadBytes⟩
  refine ⟨t', fun turns => ?_, .of_writes h hwrites' hutf8⟩
  have hplain : consumePlain byte t (turns + 16) =
      drainUtf8 false { t with utf8 := t.utf8 ++ [byte] } (turns + 16) := by
    have hvalue : 128 ≤ byte.toNat := hbyte
    have hne (value : UInt8) (hvalue' : value.toNat < 128) : byte ≠ value := by
      rintro rfl
      omega
    have hcontrol : ¬ byte ≤ 0x1f := by
      intro hle
      have hle' : byte.toNat ≤ 31 := hle
      omega
    have hprintable : ¬ byte ≤ 0x7e := by
      intro hle
      have hle' : byte.toNat ≤ 126 := hle
      omega
    unfold consumePlain
    by_cases hempty : t.utf8 = []
    · rw [if_neg (not_not.mpr hempty), if_neg (hne _ (by decide)), if_neg (hne _ (by decide)),
        if_neg (hne _ (by decide)), if_neg (not_or.mpr ⟨hne _ (by decide), hne _ (by decide)⟩),
        if_neg (hne _ (by decide)), if_neg hcontrol, if_neg hprintable]
    · rw [if_pos hempty]
  rw [hplain]
  exact hdrain turns

theorem consumePlain_low {byte : UInt8} (h : Bounded t) (hempty : t.utf8 = []) (hbyte : byte < 0x80)
    (htab : ¬ (byte = 0x09 ∧ t.cursor = maxStreamLineChars)) :
    ∃ t', (∀ turns, consumePlain byte t (turns + 16) = some t') ∧ Steps 1 t t' := by
  have hsame (t' : TerminalText) (hrows : t'.rows = t.rows) (h' : Bounded t') : Steps 1 t t' :=
    .of_rows_eq hrows h'
  have hclean (t' : TerminalText) (hutf8 : t'.utf8 = []) : head t'.utf8 = .incomplete := by
    rw [hutf8]
    rfl
  simp only [consumePlain, if_neg (not_not.mpr hempty)]
  by_cases hescape : byte = 0x1b
  · simp only [if_pos hescape]
    exact ⟨_, fun _ => rfl, hsame _ rfl
      ⟨h.cursor, h.line, h.utf8, h.csiParameters, h.escapePayloadBytes.trans (payloadLimit_le _)⟩⟩
  simp only [if_neg hescape]
  by_cases hnewline : byte = 0x0a
  · simp only [if_pos hnewline]
    refine ⟨t.pushRow, fun turns => commitRow_empty (turns + 13) hempty, ?_⟩
    exact .of_writes h writes_pushRow (hclean _ hempty)
  simp only [if_neg hnewline]
  by_cases hreturn : byte = 0x0d
  · simp only [if_pos hreturn]
    exact ⟨_, fun _ => rfl, hsame _ rfl
      ⟨Nat.zero_le _, h.line, h.utf8, h.csiParameters, h.escapePayloadBytes⟩⟩
  simp only [if_neg hreturn]
  by_cases hback : byte = 0x08 ∨ byte = 0x7f
  · simp only [if_pos hback]
    exact ⟨_, fun _ => rfl, hsame _ rfl
      ⟨(Nat.sub_le _ _).trans h.cursor, h.line, h.utf8, h.csiParameters, h.escapePayloadBytes⟩⟩
  simp only [if_neg hback]
  by_cases htabulator : byte = 0x09
  · simp only [if_pos htabulator]
    have hinside : t.cursor < maxStreamLineChars :=
      lt_of_le_of_ne h.cursor (fun hfull => htab ⟨htabulator, hfull⟩)
    have hnext : (t.cursor / 8 + 1) * 8 ≤ maxStreamLineChars := by
      unfold maxStreamLineChars at hinside ⊢
      omega
    obtain ⟨t', hrun, hwrites, hutf8⟩ := tabTo_inside hnext hempty h.cursor h.line
    refine ⟨t', fun turns => ?_, .of_writes h (hwrites.mono (Nat.zero_le _)) (hclean _ hutf8)⟩
    have hrun' := hrun (turns + (11 - ((t.cursor / 8 + 1) * 8 - t.cursor)))
    have hturns : turns + (11 - ((t.cursor / 8 + 1) * 8 - t.cursor)) +
        ((t.cursor / 8 + 1) * 8 - t.cursor) + 5 = turns + 16 := by omega
    rw [hturns] at hrun'
    exact hrun'
  simp only [if_neg htabulator]
  by_cases hcontrol : byte ≤ 0x1f
  · simp only [if_pos hcontrol]
    exact ⟨t, fun _ => rfl, hsame t rfl h⟩
  simp only [if_neg hcontrol]
  have hprintable : byte ≤ 0x7e := by
    have hdelete : byte.toNat ≠ 127 := by
      intro hvalue
      apply hback
      right
      exact UInt8.toNat_inj.mp hvalue
    have hvalue : byte.toNat < 128 := hbyte
    change byte.toNat ≤ 126
    omega
  simp only [if_pos hprintable]
  refine ⟨_, fun turns => writeChar_empty (turns + 12) _ hempty, ?_⟩
  exact .of_writes h (writes_written _ h.line) (hclean _ ((utf8_written _).trans hempty))

/-- A tab in a full row, with the replacement of a broken character counted. -/
def TabAtFullRow (t : TerminalText) (byte : UInt8) : Prop :=
  byte = 0x09 ∧ t.escape ∈ [EscapeState.ground, .escapeIntermediate, .csi] ∧
    t.cursor + (if t.utf8 = [] then 0 else 1) = maxStreamLineChars

theorem cursor_flushed (h : t.cursor ≤ maxStreamLineChars) :
    t.flushed.cursor = maxStreamLineChars ↔
      t.cursor + (if t.utf8 = [] then 0 else 1) = maxStreamLineChars := by
  unfold TerminalText.flushed
  by_cases hempty : t.utf8 = []
  · rw [if_pos hempty, if_pos hempty]
    rfl
  · rw [if_neg hempty, if_neg hempty]
    unfold TerminalText.written
    by_cases hfull : maxStreamLineChars ≤ t.cursor
    · rw [if_pos hfull]
      change 0 + 1 = maxStreamLineChars ↔ _
      unfold maxStreamLineChars at h hfull ⊢
      omega
    · rw [if_neg hfull]
      rfl

theorem consumeGround_returns {byte : UInt8} (h : Bounded t)
    (htab : ¬ (byte = 0x09 ∧ t.flushed.cursor = maxStreamLineChars)) :
    ∃ t', (∀ turns, consumeGround byte t (turns + 16) = some t') ∧ Steps 3 t t' := by
  by_cases hbyte : byte < 0x80
  · have hplain (turns : ℕ) :
        consumeGround byte t (turns + 16) = consumePlain byte t.flushed (turns + 16) := by
      unfold consumeGround
      by_cases hempty : t.utf8 = []
      · rw [if_neg (fun hboth => hboth.1 hempty), TerminalText.flushed, if_pos hempty]
      · rw [if_pos ⟨hempty, hbyte⟩, drainUtf8_flushed (turns + 10) (broken_of_bounded h)]
        rfl
    obtain ⟨t', hrun, hsteps⟩ := consumePlain_low h.flushed.bounded utf8_flushed hbyte htab
    exact ⟨t', fun turns => (hplain turns).trans (hrun turns),
      (h.flushed.trans hsteps).mono (by omega)⟩
  · obtain ⟨t', hrun, hsteps⟩ := consumePlain_high h (UInt8.not_lt.mp hbyte)
    refine ⟨t', fun turns => ?_, hsteps⟩
    rw [consumeGround, if_neg (fun hboth => hbyte hboth.2)]
    exact hrun turns

theorem consumeGround_hangs (h : Bounded t) (hfull : t.flushed.cursor = maxStreamLineChars)
    (turns : ℕ) : consumeGround 0x09 t turns = none := by
  have hplain (t' : TerminalText) (hempty : t'.utf8 = []) (hline : t'.line.length ≤ maxStreamLineChars)
      (hcursor : t'.cursor = maxStreamLineChars) : consumePlain 0x09 t' turns = none := by
    have hbehind : maxStreamLineChars < (t'.cursor / 8 + 1) * 8 := by
      rw [hcursor]
      decide
    have htab := tabTo_behind hbehind hempty hcursor.le hline turns
    simp only [consumePlain, if_neg (not_not.mpr hempty)]
    exact htab
  unfold consumeGround
  by_cases hempty : t.utf8 = []
  · rw [if_neg (fun hboth => hboth.1 hempty)]
    rw [TerminalText.flushed, if_pos hempty] at hfull
    exact hplain t hempty h.line hfull
  · rw [if_pos ⟨hempty, by decide⟩]
    cases hdrain : drainUtf8 true t turns with
    | none => rfl
    | some t' =>
        have hmore := drainUtf8_more hdrain 6
        rw [drainUtf8_flushed turns (broken_of_bounded h)] at hmore
        rw [← Option.some.inj hmore]
        exact hplain t.flushed utf8_flushed h.flushed.bounded.line hfull

theorem recoverEscapeWith_returns {byte : UInt8} (h : Bounded t)
    (hescape : t.escape ∈ [EscapeState.ground, .escapeIntermediate, .csi])
    (htab : ¬ TabAtFullRow t byte) :
    ∃ t', (∀ turns, recoverEscapeWith byte t (turns + 16) = some t') ∧ Steps 3 t t' := by
  have htab' : ¬ (byte = 0x09 ∧ t.resetEscape.flushed.cursor = maxStreamLineChars) := by
    rintro ⟨hbyte, hfull⟩
    exact htab ⟨hbyte, hescape, (cursor_flushed h.resetEscape.cursor).mp hfull⟩
  obtain ⟨t', hrun, hsteps⟩ := consumeGround_returns h.resetEscape htab'
  exact ⟨t', hrun, hsteps.rows, hsteps.bounded⟩

/-- In a control string and behind its escape a tab is part of the string. -/
theorem recoverEscapeWith_newline {byte : UInt8} (h : Bounded t) (hbyte : byte = 0x0d ∨ byte = 0x0a) :
    ∃ t', (∀ turns, recoverEscapeWith byte t (turns + 16) = some t') ∧ Steps 3 t t' := by
  have htab : ¬ (byte = 0x09 ∧ t.resetEscape.flushed.cursor = maxStreamLineChars) := by
    rintro ⟨rfl, -⟩
    rcases hbyte with h | h <;> cases h
  obtain ⟨t', hrun, hsteps⟩ := consumeGround_returns h.resetEscape htab
  exact ⟨t', hrun, hsteps.rows, hsteps.bounded⟩

theorem Bounded.bumpControlString (h : Bounded t)
    (hescape : payloadLimit t.escape = maxControlStringBytes) :
    Bounded t.bumpControlString.2 ∧ (t.bumpControlString.1 = true →
      t.bumpControlString.2.escapePayloadBytes ≤ maxControlStringBytes) := by
  unfold TerminalText.bumpControlString
  by_cases hlong : maxControlStringBytes < t.escapePayloadBytes + 1
  · simp only [if_pos hlong]
    exact ⟨⟨h.cursor, h.line, h.utf8, Nat.zero_le _, Nat.zero_le _⟩, fun hfalse => by cases hfalse⟩
  · simp only [if_neg hlong]
    refine ⟨⟨h.cursor, h.line, h.utf8, h.csiParameters, ?_⟩, fun _ => not_lt.mp hlong⟩
    rw [hescape]
    exact not_lt.mp hlong

theorem consumeEscape_returns {byte : UInt8} (h : Bounded t) (hescape : t.escape ≠ .ground)
    (htab : ¬ TabAtFullRow t byte) :
    ∃ t', (∀ turns, consumeEscape byte t (turns + 16) = some t') ∧ Steps 3 t t' := by
  have hstays (t' : TerminalText) (hrows : t'.rows = t.rows) (h' : Bounded t') :
      ∃ t'', (∀ _ : ℕ, some t' = some t'') ∧ Steps 3 t t'' :=
    ⟨t', fun _ => rfl, .of_rows_eq hrows h'⟩
  have hreset := hstays t.resetEscape rfl h.resetEscape
  unfold consumeEscape
  by_cases hcancel : byte = 0x18 ∨ byte = 0x1a
  · simp only [if_pos hcancel]
    exact hreset
  simp only [if_neg hcancel]
  cases hstate : t.escape with
  | ground => exact absurd hstate hescape
  | escape =>
      simp only
      by_cases hcsi : byte = 0x5b
      · simp only [if_pos hcsi]
        exact hstays _ rfl h.startCsi
      simp only [if_neg hcsi]
      by_cases hstring : byte ∈ ([0x5d, 0x50, 0x58, 0x5e, 0x5f] : Bytes)
      · simp only [if_pos hstring]
        exact hstays _ rfl h.startControlString
      simp only [if_neg hstring]
      by_cases hintermediate : 0x20 ≤ byte ∧ byte ≤ 0x2f
      · simp only [if_pos hintermediate]
        have hone : 1 ≤ payloadLimit .escapeIntermediate := by decide
        exact hstays _ rfl ⟨h.cursor, h.line, h.utf8, h.csiParameters, hone⟩
      simp only [if_neg hintermediate]
      by_cases hagain : byte = 0x1b
      · simp only [if_pos hagain]
        exact hstays _ rfl ⟨h.cursor, h.line, h.utf8, h.csiParameters, Nat.zero_le _⟩
      · simp only [if_neg hagain]
        exact hreset
  | escapeIntermediate =>
      have hgrounded : t.escape ∈ [EscapeState.ground, .escapeIntermediate, .csi] := by
        simp [hstate]
      have hrecover := recoverEscapeWith_returns h hgrounded htab
      simp only
      by_cases hagain : byte = 0x1b
      · simp only [if_pos hagain]
        exact hstays _ rfl ⟨h.cursor, h.line, h.utf8, h.csiParameters, Nat.zero_le _⟩
      simp only [if_neg hagain]
      by_cases hnewline : byte = 0x0d ∨ byte = 0x0a
      · simp only [if_pos hnewline]
        exact hrecover
      simp only [if_neg hnewline]
      by_cases hintermediate : 0x20 ≤ byte ∧ byte ≤ 0x2f
      · simp only [if_pos hintermediate]
        by_cases hlong : maxEscapeIntermediateBytes < t.escapePayloadBytes + 1
        · simp only [if_pos hlong]
          exact hstays _ rfl ⟨h.cursor, h.line, h.utf8, Nat.zero_le _, Nat.zero_le _⟩
        · simp only [if_neg hlong]
          exact hstays _ rfl ⟨h.cursor, h.line, h.utf8, h.csiParameters, not_lt.mp hlong⟩
      simp only [if_neg hintermediate]
      by_cases hfinal : 0x30 ≤ byte ∧ byte ≤ 0x7e
      · simp only [if_pos hfinal]
        exact hreset
      · simp only [if_neg hfinal]
        exact hrecover
  | csi =>
      have hgrounded : t.escape ∈ [EscapeState.ground, .escapeIntermediate, .csi] := by
        simp [hstate]
      have hrecover := recoverEscapeWith_returns h hgrounded htab
      simp only
      by_cases hagain : byte = 0x1b
      · simp only [if_pos hagain]
        exact hstays _ rfl ⟨h.cursor, h.line, h.utf8, Nat.zero_le _, Nat.zero_le _⟩
      simp only [if_neg hagain]
      by_cases hnewline : byte = 0x0d ∨ byte = 0x0a
      · simp only [if_pos hnewline]
        exact hrecover
      simp only [if_neg hnewline]
      by_cases hfinal : 0x40 ≤ byte ∧ byte ≤ 0x7e
      · simp only [if_pos hfinal]
        have happlied := h.resetEscape.applyCsi (a := 3) byte t.csiParameters
        exact ⟨_, fun _ => rfl, happlied.rows, happlied.bounded⟩
      simp only [if_neg hfinal]
      by_cases hparameter : 0x20 ≤ byte ∧ byte ≤ 0x3f
      · simp only [if_pos hparameter]
        by_cases hroom : t.csiParameters.length < maxCsiParameterBytes
        · simp only [if_pos hroom]
          refine hstays _ rfl ⟨h.cursor, h.line, h.utf8, ?_,
            h.escapePayloadBytes.trans (payloadLimit_le _)⟩
          rw [List.length_append]
          exact hroom
        · simp only [if_neg hroom]
          exact hreset
      · simp only [if_neg hparameter]
        exact hrecover
  | controlString =>
      have hlimit : payloadLimit t.escape = maxControlStringBytes := by rw [hstate]; rfl
      obtain ⟨hbumped, hgoes⟩ := h.bumpControlString hlimit
      have hrows : t.bumpControlString.2.rows = t.rows := by
        unfold TerminalText.bumpControlString
        simp only
        split_ifs <;> rfl
      simp only
      by_cases hend : byte = 0x07 ∨ byte = 0x9c
      · simp only [if_pos hend]
        exact hreset
      simp only [if_neg hend]
      by_cases hnewline : byte = 0x0d ∨ byte = 0x0a
      · simp only [if_pos hnewline]
        exact recoverEscapeWith_newline h hnewline
      simp only [if_neg hnewline]
      by_cases hescaped : byte = 0x1b ∧ t.bumpControlString.1 = true
      · simp only [if_pos hescaped]
        exact hstays _ hrows
          ⟨hbumped.cursor, hbumped.line, hbumped.utf8, hbumped.csiParameters, hgoes hescaped.2⟩
      · simp only [if_neg hescaped]
        exact hstays _ hrows hbumped
  | controlStringEscape =>
      have hlimit : payloadLimit t.escape = maxControlStringBytes := by rw [hstate]; rfl
      obtain ⟨hbumped, hgoes⟩ := h.bumpControlString hlimit
      have hrows : t.bumpControlString.2.rows = t.rows := by
        unfold TerminalText.bumpControlString
        simp only
        split_ifs <;> rfl
      simp only
      by_cases hend : byte = 0x5c ∨ byte = 0x9c
      · simp only [if_pos hend]
        exact hreset
      simp only [if_neg hend]
      by_cases hnewline : byte = 0x0d ∨ byte = 0x0a
      · simp only [if_pos hnewline]
        exact recoverEscapeWith_newline h hnewline
      simp only [if_neg hnewline]
      by_cases hescaped : byte ≠ 0x1b ∧ t.bumpControlString.1 = true
      · simp only [if_pos hescaped]
        exact hstays _ hrows
          ⟨hbumped.cursor, hbumped.line, hbumped.utf8, hbumped.csiParameters, hgoes hescaped.2⟩
      · simp only [if_neg hescaped]
        exact hstays _ hrows hbumped

/-- The step: a byte returns within a fixed number of turns, unless it is a tab at a
full row. -/
theorem consume_returns {byte : UInt8} (h : Bounded t) (htab : ¬ TabAtFullRow t byte) :
    ∃ t', (∀ turns, consume byte t (turns + 16) = some t') ∧ Steps 3 t t' := by
  by_cases hground : t.escape = .ground
  · have htab' : ¬ (byte = 0x09 ∧ t.flushed.cursor = maxStreamLineChars) := by
      rintro ⟨hbyte, hfull⟩
      exact htab ⟨hbyte, by simp [hground], (cursor_flushed h.cursor).mp hfull⟩
    obtain ⟨t', hrun, hsteps⟩ := consumeGround_returns h htab'
    refine ⟨t', fun turns => ?_, hsteps⟩
    rw [consume, if_pos hground]
    exact hrun turns
  · obtain ⟨t', hrun, hsteps⟩ := consumeEscape_returns h hground htab
    refine ⟨t', fun turns => ?_, hsteps⟩
    rw [consume, if_neg hground]
    exact hrun turns

theorem consume_hangs {byte : UInt8} (h : Bounded t) (htab : TabAtFullRow t byte) (turns : ℕ) :
    consume byte t turns = none := by
  obtain ⟨rfl, hescape, hfull⟩ := htab
  have hreset : t.resetEscape.flushed.cursor = maxStreamLineChars :=
    (cursor_flushed h.resetEscape.cursor).mpr hfull
  have hrecover : recoverEscapeWith 0x09 t turns = none := consumeGround_hangs h.resetEscape hreset turns
  by_cases hground : t.escape = .ground
  · rw [consume, if_pos hground]
    exact consumeGround_hangs h ((cursor_flushed h.cursor).mpr hfull) turns
  · rw [consume, if_neg hground, consumeEscape, if_neg (by decide)]
    have hstate : t.escape = .escapeIntermediate ∨ t.escape = .csi := by
      simpa [hground] using hescape
    rcases hstate with hstate | hstate
    · simp only [hstate]
      exact hrecover
    · simp only [hstate]
      exact hrecover

theorem finishInput_returns (h : Bounded t) :
    ∃ t', (∀ turns, finishInput t (turns + 16) = some t') ∧ Steps 1 t t' := by
  refine ⟨t.flushed.resetEscape, fun turns => ?_, ?_⟩
  · rw [finishInput, drainUtf8_flushed (turns + 10) (broken_of_bounded h)]
    rfl
  · exact ⟨h.flushed.rows, h.flushed.bounded.resetEscape⟩

theorem Bounded.takePending (h : Bounded t) : Bounded t.takePending.2 := by
  unfold TerminalText.takePending
  split
  · exact h
  · exact ⟨Nat.zero_le _, Nat.zero_le _, h.utf8, h.csiParameters, h.escapePayloadBytes⟩

end

/-! ## Reachable states -/

/-- With enough turns the method returns `t'`. -/
def Returns (method : ℕ → Option TerminalText) (t' : TerminalText) : Prop :=
  ∃ enough, ∀ turns, enough ≤ turns → method turns = some t'

/-- The states of a terminal whose methods returned so far. -/
inductive Reachable : TerminalText → Prop
  | default : Reachable default
  | consume {t t' : TerminalText} {byte : UInt8} (h : Reachable t)
      (hreturns : Returns (consume byte t) t') : Reachable t'
  | finishInput {t t' : TerminalText} (h : Reachable t) (hreturns : Returns (finishInput t) t') :
      Reachable t'
  | takePending {t : TerminalText} (h : Reachable t) : Reachable t.takePending.2
  /-- The caller has read the finished rows. -/
  | collected {t : TerminalText} (h : Reachable t) : Reachable { t with rows := [] }

section
variable {t t' t'' : TerminalText} {method : ℕ → Option TerminalText}

theorem Returns.of_turns {enough : ℕ} (h : ∀ turns, method (turns + enough) = some t') :
    Returns method t' := by
  refine ⟨enough, fun turns hturns => ?_⟩
  have hsum : turns - enough + enough = turns := by omega
  rw [← hsum]
  exact h _

theorem Returns.unique (h : Returns method t') (h' : Returns method t'') : t' = t'' := by
  obtain ⟨enough, hall⟩ := h
  obtain ⟨enough', hall'⟩ := h'
  have heq := (hall _ (Nat.le_max_left enough enough')).symm.trans
    (hall' _ (Nat.le_max_right enough enough'))
  exact Option.some.inj heq

theorem not_returns (h : ∀ turns, method turns = none) : ¬ Returns method t' := by
  rintro ⟨enough, hall⟩
  have hsome := hall enough (le_refl _)
  rw [h] at hsome
  cases hsome

theorem Reachable.bounded (h : Reachable t) : Bounded t := by
  induction h with
  | default => exact bounded_default
  | @consume t t' byte _ hreturns ih =>
      by_cases htab : TabAtFullRow t byte
      · exact absurd hreturns (not_returns (consume_hangs ih htab))
      · obtain ⟨t₁, hrun, hsteps⟩ := consume_returns ih htab
        rw [hreturns.unique (.of_turns hrun)]
        exact hsteps.bounded
  | @finishInput t t' _ hreturns ih =>
      obtain ⟨t₁, hrun, hsteps⟩ := finishInput_returns ih
      rw [hreturns.unique (.of_turns hrun)]
      exact hsteps.bounded
  | takePending _ ih => exact ih.takePending
  | collected _ ih => exact ⟨ih.cursor, ih.line, ih.utf8, ih.csiParameters, ih.escapePayloadBytes⟩

/-- What a byte may do: at most three rows, and every buffer within its limit. -/
structure Within (t t' : TerminalText) : Prop where
  rows : ∃ finished, t'.rows = t.rows ++ finished ∧ finished.length ≤ 3
  cursor : t'.cursor ≤ maxStreamLineChars
  line : t'.line.length ≤ maxStreamLineChars
  csiParameters : t'.csiParameters.length ≤ maxCsiParameterBytes
  escapePayloadBytes : t'.escapePayloadBytes ≤ maxControlStringBytes
  utf8 : t'.utf8.length ≤ 3

theorem Steps.within (h : Steps 3 t t') : Within t t' where
  rows := h.rows
  cursor := h.bounded.cursor
  line := h.bounded.line
  csiParameters := h.bounded.csiParameters
  escapePayloadBytes := h.bounded.escapePayloadBytes.trans (payloadLimit_le _)
  utf8 := length_of_incomplete h.bounded.utf8

/-- A byte of a reachable terminal returns within the bounds, or is a tab at a full row. -/
theorem consume_returns_iff (h : Reachable t) (byte : UInt8) :
    (∃ t', Returns (consume byte t) t' ∧ Within t t') ↔ ¬ TabAtFullRow t byte := by
  constructor
  · rintro ⟨t', hreturns, -⟩ htab
    exact not_returns (consume_hangs h.bounded htab) hreturns
  · intro htab
    obtain ⟨t', hrun, hsteps⟩ := consume_returns h.bounded htab
    exact ⟨t', .of_turns hrun, hsteps.within⟩

end

end SerialPlatform.Display.TerminalText
