import SerialPlatform.TerminalText

/-!
# Rows which continue another row

Only a row which was cut at its limit is continued, by the row behind it.  Whatever a
terminal does, the first row it finishes continues another row only if the open row
did, and behind it the open row continues another one only if it did before or a row
was finished.
-/

namespace SerialPlatform.Display.TerminalText

example : csiParameter [0x31, 0x32, 0x3b] 0 1 = 12 := by decide +kernel

/-- From one terminal to another: the finished rows, and what the open row continues. -/
def Splits (t t' : TerminalText) : Prop :=
  ∃ finished, t'.rows = t.rows ++ finished ∧
    (∀ first ∈ finished.head?, first.continuesPrevious = true → t.continuesPrevious = true) ∧
    (t'.continuesPrevious = true → finished ≠ [] ∨ t.continuesPrevious = true)

namespace Splits

variable {t t' t'' : TerminalText}

theorem of_same (hrows : t'.rows = t.rows) (hcontinues : t'.continuesPrevious = t.continuesPrevious) :
    Splits t t' := by
  refine ⟨[], by simp [hrows], by simp, fun h => .inr ?_⟩
  rw [← hcontinues]
  exact h

theorem refl : Splits t t := of_same rfl rfl

theorem trans (h : Splits t t') (h' : Splits t' t'') : Splits t t'' := by
  obtain ⟨finished, hrows, hfirst, hopen⟩ := h
  obtain ⟨finished', hrows', hfirst', hopen'⟩ := h'
  refine ⟨finished ++ finished', by rw [hrows', hrows, List.append_assoc], ?_, ?_⟩
  · intro first hmem hflag
    cases finished with
    | cons row rest => exact hfirst first hmem hflag
    | nil =>
        have hbefore := hopen (hfirst' first hmem hflag)
        simpa using hbefore
  · intro hflag
    rcases hopen' hflag with hsome | hbefore
    · exact .inl (fun hnil => hsome (List.append_eq_nil_iff.mp hnil).2)
    · rcases hopen hbefore with hsome | hstart
      · exact .inl (fun hnil => hsome (List.append_eq_nil_iff.mp hnil).1)
      · exact .inr hstart

end Splits

section
variable {t t' : TerminalText}

theorem splits_put (character : Char) : Splits t (t.put character) := .of_same rfl rfl

theorem splits_pushRow : Splits t t.pushRow := by
  refine ⟨[⟨t.line, t.continuesPrevious⟩], rfl, ?_, fun h => by cases h⟩
  intro first hfirst hflag
  have hrow : first = ⟨t.line, t.continuesPrevious⟩ := by simpa using hfirst.symm
  rw [hrow] at hflag
  exact hflag

/-- The row behind a finished one may continue it. -/
theorem Splits.continued (h : Splits t t') (hfinished : t'.rows ≠ t.rows) :
    Splits t { t' with continuesPrevious := true } := by
  obtain ⟨finished, hrows, hfirst, -⟩ := h
  refine ⟨finished, hrows, hfirst, fun _ => .inl ?_⟩
  rintro rfl
  exact hfinished (by rw [hrows, List.append_nil])

/-- A row more than before. -/
theorem Splits.rows_pushRow (h : Splits t t') : t'.pushRow.rows ≠ t.rows := by
  obtain ⟨finished, hrows, -, -⟩ := h
  intro heq
  have hlength := congrArg List.length heq
  simp only [pushRow, hrows, List.length_append, List.length_cons, List.length_nil] at hlength
  omega

/-! ## The methods -/

/-- The four methods which write characters, by the turns they have. -/
theorem splits_turns (turns : ℕ) :
    (∀ finalize t t', drainUtf8 finalize t turns = some t' → Splits t t') ∧
    (∀ characters t t', writeChars characters t turns = some t' → Splits t t') ∧
    (∀ character t t', writeChar character t turns = some t' → Splits t t') ∧
    (∀ t t', commitRow t turns = some t' → Splits t t' ∧ t'.rows ≠ t.rows) := by
  induction turns with
  | zero => simp [drainUtf8, writeChars, writeChar, commitRow]
  | succ turns ih =>
      obtain ⟨hdrain, hchars, hchar, hcommit⟩ := ih
      have hsame (t : TerminalText) (bytes : Bytes) : Splits t { t with utf8 := bytes } :=
        .of_same rfl rfl
      refine ⟨fun finalize t t' h => ?_, fun characters t t' h => ?_, fun character t t' h => ?_,
        fun t t' h => ?_⟩
      · rw [drainUtf8] at h
        by_cases hend : (Utf8Scan.scan t.utf8).stop = .atEnd
        · rw [if_pos hend] at h
          exact (hsame t _).trans (hchars _ _ _ h)
        rw [if_neg hend] at h
        by_cases hvalid : 0 < (Utf8Scan.scan t.utf8).validUpTo
        · rw [if_pos hvalid] at h
          obtain ⟨t₁, hwritten, hrest⟩ := Option.bind_eq_some_iff.mp h
          exact ((hsame t _).trans (hchars _ _ _ hwritten)).trans (hdrain _ _ _ hrest)
        rw [if_neg hvalid] at h
        split at h
        · obtain ⟨t₁, hwritten, hrest⟩ := Option.bind_eq_some_iff.mp h
          exact ((hsame t _).trans (hchar _ _ _ hwritten)).trans (hdrain _ _ _ hrest)
        · split_ifs at h
          · exact (hsame t _).trans (hchar _ _ _ h)
          · cases h
            exact .refl
      · cases characters with
        | nil =>
            rw [writeChars] at h
            cases h
            exact .refl
        | cons character rest =>
            rw [writeChars] at h
            obtain ⟨t₁, hwritten, hrest⟩ := Option.bind_eq_some_iff.mp h
            exact (hchar _ _ _ hwritten).trans (hchars _ _ _ hrest)
      · rw [writeChar] at h
        split_ifs at h
        · obtain ⟨t₁, hcommitted, hrest⟩ := Option.bind_eq_some_iff.mp h
          cases hrest
          obtain ⟨hsplits, hmore⟩ := hcommit _ _ hcommitted
          exact (hsplits.continued hmore).trans (splits_put character)
        · cases h
          exact splits_put character
      · rw [commitRow] at h
        obtain ⟨t₁, hdrained, hrest⟩ := Option.bind_eq_some_iff.mp h
        cases hrest
        have hsplits := hdrain _ _ _ hdrained
        exact ⟨hsplits.trans splits_pushRow, hsplits.rows_pushRow⟩

theorem splits_drainUtf8 {finalize : Bool} {turns : ℕ} (h : drainUtf8 finalize t turns = some t') :
    Splits t t' :=
  (splits_turns turns).1 _ _ _ h

theorem splits_writeChar {character : Char} {turns : ℕ} (h : writeChar character t turns = some t') :
    Splits t t' :=
  (splits_turns turns).2.2.1 _ _ _ h

theorem splits_commitRow {turns : ℕ} (h : commitRow t turns = some t') : Splits t t' :=
  ((splits_turns turns).2.2.2 _ _ h).1

theorem splits_tabTo {nextTab turns : ℕ} (h : tabTo nextTab t turns = some t') : Splits t t' := by
  induction turns generalizing t with
  | zero => cases h
  | succ turns ih =>
      rw [tabTo] at h
      split_ifs at h
      · obtain ⟨t₁, hwritten, hrest⟩ := Option.bind_eq_some_iff.mp h
        exact (splits_writeChar hwritten).trans (ih hrest)
      · cases h
        exact .refl

theorem splits_consumePlain {byte : UInt8} {turns : ℕ} (h : consumePlain byte t turns = some t') :
    Splits t t' := by
  have hpending : Splits t { t with utf8 := t.utf8 ++ [byte] } := .of_same rfl rfl
  unfold consumePlain at h
  split_ifs at h
  · exact hpending.trans (splits_drainUtf8 h)
  · cases h
    exact .of_same rfl rfl
  · exact splits_commitRow h
  · cases h
    exact .of_same rfl rfl
  · cases h
    exact .of_same rfl rfl
  · exact splits_tabTo h
  · cases h
    exact .refl
  · exact splits_writeChar h
  · exact hpending.trans (splits_drainUtf8 h)

theorem splits_consumeGround {byte : UInt8} {turns : ℕ} (h : consumeGround byte t turns = some t') :
    Splits t t' := by
  unfold consumeGround at h
  split_ifs at h
  · obtain ⟨t₁, hdrained, hrest⟩ := Option.bind_eq_some_iff.mp h
    exact (splits_drainUtf8 hdrained).trans (splits_consumePlain hrest)
  · exact splits_consumePlain h

theorem splits_recoverEscapeWith {byte : UInt8} {turns : ℕ}
    (h : recoverEscapeWith byte t turns = some t') : Splits t t' := by
  have hreset : Splits t t.resetEscape := .of_same rfl rfl
  exact hreset.trans (splits_consumeGround h)

theorem splits_applyCsi (finalByte : UInt8) (parameters : Bytes) :
    Splits t (t.applyCsi finalByte parameters) := by
  unfold applyCsi
  simp only
  split
  · split <;> exact .of_same rfl rfl
  all_goals exact .of_same rfl rfl

theorem splits_bumpControlString : Splits t t.bumpControlString.2 := by
  unfold bumpControlString
  simp only
  split_ifs <;> exact .of_same rfl rfl

/-- Of the bytes in an escape sequence only those which recover the ground state may finish
a row. -/
theorem splits_consumeEscape {byte : UInt8} {turns : ℕ} (h : consumeEscape byte t turns = some t') :
    Splits t t' := by
  have hescape (state : EscapeState) (terminal : TerminalText) :
      Splits terminal { terminal with escape := state } := .of_same rfl rfl
  have hreset : Splits t t.resetEscape := .of_same rfl rfl
  unfold consumeEscape at h
  by_cases hcancel : byte = 0x18 ∨ byte = 0x1a
  · rw [if_pos hcancel] at h
    cases h
    exact hreset
  rw [if_neg hcancel] at h
  cases hstate : t.escape with
  | ground =>
      simp only [hstate] at h
      cases h
  | escape =>
      simp only [hstate] at h
      split_ifs at h <;> cases h <;> exact .of_same rfl rfl
  | escapeIntermediate =>
      simp only [hstate] at h
      split_ifs at h
      · cases h
        exact .of_same rfl rfl
      · exact splits_recoverEscapeWith h
      · cases h
        exact .of_same rfl rfl
      · cases h
        exact .of_same rfl rfl
      · cases h
        exact hreset
      · exact splits_recoverEscapeWith h
  | csi =>
      simp only [hstate] at h
      split_ifs at h
      · cases h
        exact .of_same rfl rfl
      · exact splits_recoverEscapeWith h
      · cases h
        exact hreset.trans (splits_applyCsi byte _)
      · cases h
        exact .of_same rfl rfl
      · cases h
        exact hreset
      · exact splits_recoverEscapeWith h
  | controlString =>
      simp only [hstate] at h
      split_ifs at h
      · cases h
        exact hreset
      · exact splits_recoverEscapeWith h
      · cases h
        exact splits_bumpControlString.trans (hescape _ _)
      · cases h
        exact splits_bumpControlString
  | controlStringEscape =>
      simp only [hstate] at h
      split_ifs at h
      · cases h
        exact hreset
      · exact splits_recoverEscapeWith h
      · cases h
        exact splits_bumpControlString.trans (hescape _ _)
      · cases h
        exact splits_bumpControlString

theorem splits_consume {byte : UInt8} {turns : ℕ} (h : consume byte t turns = some t') :
    Splits t t' := by
  unfold consume at h
  split_ifs at h
  · exact splits_consumeGround h
  · exact splits_consumeEscape h

theorem splits_finishInput {turns : ℕ} (h : finishInput t turns = some t') : Splits t t' := by
  obtain ⟨t₁, hdrained, hrest⟩ := Option.bind_eq_some_iff.mp h
  cases hrest
  have hreset : Splits t₁ t₁.resetEscape := .of_same rfl rfl
  exact (splits_drainUtf8 hdrained).trans hreset

end

end SerialPlatform.Display.TerminalText
