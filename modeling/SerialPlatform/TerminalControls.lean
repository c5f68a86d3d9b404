import SerialPlatform.TerminalBounds
import SerialPlatform.Utf8Lossy

/-!
# Control characters in the rows of a terminal

The bytes which move the cursor are acted on and never written, so that a row has no
control character of one byte.  The C1 controls have two bytes in UTF-8: those are
decoded like any character, once the terminal holds the first of them.
-/

namespace SerialPlatform.Display.TerminalText

open Utf8Scan

def Printable (text : List Char) : Prop := ∀ character ∈ text, ¬ IsControl character

/-- No row has a control character, and the bytes held start none. -/
structure Prints (t : TerminalText) : Prop where
  line : Printable t.line
  rows : ∀ row ∈ t.rows, Printable row.text
  utf8 : ∀ count, Printable (scan (t.utf8.drop count)).chars

/-- With this byte the bytes held are a C1 control. -/
def DecodesC1 (t : TerminalText) (byte : UInt8) : Prop := t.utf8 = [0xc2] ∧ IsC1Tail byte

instance (t : TerminalText) (byte : UInt8) : Decidable (DecodesC1 t byte) :=
  inferInstanceAs (Decidable (_ ∧ _))

theorem printable_nil : Printable [] := by
  intro character hmem
  cases hmem

theorem Printable.append {text more : List Char} (h : Printable text) (hmore : Printable more) :
    Printable (text ++ more) := by
  intro character hmem
  rcases List.mem_append.mp hmem with hmem | hmem
  · exact h character hmem
  · exact hmore character hmem

theorem Printable.of_subset {text more : List Char} (h : Printable more)
    (hsubset : ∀ character ∈ text, character ∈ more ∨ character = ' ') : Printable text := by
  intro character hmem
  rcases hsubset character hmem with hmem | hblank
  · exact h character hmem
  · rw [hblank]
    decide

theorem mem_blanks {character : Char} {count : ℕ} (h : character ∈ List.replicate count ' ') :
    character = ' ' :=
  List.eq_of_mem_replicate h

section
variable {t t' : TerminalText}

theorem prints_default : Prints TerminalText.default where
  line := printable_nil
  rows := by simp [TerminalText.default]
  utf8 := by
    intro count
    simp [TerminalText.default, Printable]

theorem Prints.keep (h : Prints t) (hline : t'.line = t.line) (hrows : t'.rows = t.rows)
    (hutf8 : t'.utf8 = t.utf8) : Prints t' where
  line := by
    rw [hline]
    exact h.line
  rows := by
    rw [hrows]
    exact h.rows
  utf8 := by
    rw [hutf8]
    exact h.utf8

theorem Prints.drop (h : Prints t) (count : ℕ) :
    Prints { t with utf8 := t.utf8.drop count } where
  line := h.line
  rows := h.rows
  utf8 := by
    intro more
    rw [List.drop_drop]
    exact h.utf8 _

theorem Prints.drained (h : Prints t) : Prints { t with utf8 := [] } where
  line := h.line
  rows := h.rows
  utf8 := by
    intro more
    simp [Printable]

/-! ## Characters and rows -/

theorem Prints.put (h : Prints t) {character : Char} (hcharacter : ¬ IsControl character) :
    Prints (t.put character) where
  line := by
    have hblanks : Printable (t.line ++ List.replicate (t.cursor - t.line.length) ' ') := by
      apply h.line.of_subset
      intro other hmem
      rcases List.mem_append.mp hmem with hmem | hmem
      · exact .inl hmem
      · exact .inr (mem_blanks hmem)
    unfold TerminalText.put
    simp only
    split_ifs
    · intro other hmem
      rcases List.mem_or_eq_of_mem_set hmem with hmem | heq
      · exact hblanks other hmem
      · rw [heq]
        exact hcharacter
    · apply hblanks.append
      intro other hmem
      rw [List.mem_singleton.mp hmem]
      exact hcharacter
  rows := h.rows
  utf8 := h.utf8

theorem Prints.pushRow (h : Prints t) : Prints t.pushRow where
  line := printable_nil
  rows := by
    intro row hmem
    rcases List.mem_append.mp hmem with hmem | hmem
    · exact h.rows row hmem
    · rw [List.mem_singleton.mp hmem]
      exact h.line
  utf8 := h.utf8

/-- The four methods which write characters, by the turns they have. -/
theorem prints_turns (turns : ℕ) :
    (∀ finalize t t', drainUtf8 finalize t turns = some t' → Prints t → Prints t') ∧
    (∀ characters t t', writeChars characters t turns = some t' → Printable characters →
      Prints t → Prints t') ∧
    (∀ character t t', writeChar character t turns = some t' → ¬ IsControl character →
      Prints t → Prints t') ∧
    (∀ t t', commitRow t turns = some t' → Prints t → Prints t') := by
  induction turns with
  | zero => simp [drainUtf8, writeChars, writeChar, commitRow]
  | succ turns ih =>
      obtain ⟨hdrain, hchars, hchar, hcommit⟩ := ih
      refine ⟨fun finalize t t' h hprints => ?_, fun characters t t' h hcharacters hprints => ?_,
        fun character t t' h hcharacter hprints => ?_, fun t t' h hprints => ?_⟩
      · have hscan : Printable (scan t.utf8).chars := hprints.utf8 0
        rw [drainUtf8] at h
        by_cases hend : (scan t.utf8).stop = .atEnd
        · rw [if_pos hend] at h
          exact hchars _ _ _ h hscan hprints.drained
        rw [if_neg hend] at h
        by_cases hvalid : 0 < (scan t.utf8).validUpTo
        · rw [if_pos hvalid] at h
          obtain ⟨t₁, hwritten, hrest⟩ := Option.bind_eq_some_iff.mp h
          exact hdrain _ _ _ hrest (hchars _ _ _ hwritten hscan (hprints.drop _))
        rw [if_neg hvalid] at h
        split at h
        · obtain ⟨t₁, hwritten, hrest⟩ := Option.bind_eq_some_iff.mp h
          exact hdrain _ _ _ hrest
            (hchar _ _ _ hwritten not_isControl_replacement (hprints.drop _))
        · split_ifs at h
          · exact hchar _ _ _ h not_isControl_replacement hprints.drained
          · cases h
            exact hprints
      · cases characters with
        | nil =>
            rw [writeChars] at h
            cases h
            exact hprints
        | cons character rest =>
            rw [writeChars] at h
            obtain ⟨t₁, hwritten, hrest⟩ := Option.bind_eq_some_iff.mp h
            have hfirst := hchar _ _ _ hwritten (hcharacters character List.mem_cons_self) hprints
            exact hchars _ _ _ hrest
              (fun other hmem => hcharacters other (List.mem_cons_of_mem _ hmem)) hfirst
      · rw [writeChar] at h
        split_ifs at h
        · obtain ⟨t₁, hcommitted, hrest⟩ := Option.bind_eq_some_iff.mp h
          cases hrest
          have hrow := hcommit _ _ hcommitted hprints
          have hcontinued : Prints { t₁ with continuesPrevious := true } := hrow.keep rfl rfl rfl
          exact hcontinued.put hcharacter
        · cases h
          exact hprints.put hcharacter
      · rw [commitRow] at h
        obtain ⟨t₁, hdrained, hrest⟩ := Option.bind_eq_some_iff.mp h
        cases hrest
        exact (hdrain _ _ _ hdrained hprints).pushRow

theorem Prints.drainUtf8 (h : Prints t) {finalize : Bool} {turns : ℕ}
    (hdrain : drainUtf8 finalize t turns = some t') : Prints t' :=
  (prints_turns turns).1 _ _ _ hdrain h

theorem Prints.writeChar (h : Prints t) {character : Char} {turns : ℕ}
    (hwrite : writeChar character t turns = some t') (hcharacter : ¬ IsControl character) :
    Prints t' :=
  (prints_turns turns).2.2.1 _ _ _ hwrite hcharacter h

theorem Prints.commitRow (h : Prints t) {turns : ℕ} (hcommit : commitRow t turns = some t') :
    Prints t' :=
  (prints_turns turns).2.2.2 _ _ hcommit h

theorem Prints.tabTo {nextTab turns : ℕ} (h : Prints t) (htab : tabTo nextTab t turns = some t') :
    Prints t' := by
  induction turns generalizing t with
  | zero => cases htab
  | succ turns ih =>
      rw [TerminalText.tabTo] at htab
      split_ifs at htab
      · obtain ⟨t₁, hwritten, hrest⟩ := Option.bind_eq_some_iff.mp htab
        exact ih (h.writeChar hwritten (by decide)) hrest
      · cases htab
        exact h

/-! ## Control sequences -/

theorem printable_fillBlank {line : List Char} (h : Printable line) (start stop : ℕ) :
    Printable (fillBlank line start stop) := by
  apply h.of_subset
  intro character hmem
  rcases List.mem_append.mp hmem with hmem | hmem
  · rcases List.mem_append.mp hmem with hmem | hmem
    · exact .inl (List.mem_of_mem_take hmem)
    · exact .inr (mem_blanks hmem)
  · exact .inl (List.mem_of_mem_drop hmem)

/-- A control sequence erases, inserts blanks or moves the cursor. -/
theorem Prints.applyCsi (h : Prints t) (finalByte : UInt8) (parameters : Bytes) :
    Prints (t.applyCsi finalByte parameters) := by
  have htake (count : ℕ) : Printable (t.line.take count) :=
    fun character hmem => h.line character (List.mem_of_mem_take hmem)
  have hdrop (count : ℕ) : Printable (t.line.drop count) :=
    fun character hmem => h.line character (List.mem_of_mem_drop hmem)
  unfold TerminalText.applyCsi
  dsimp only
  split
  · split
    · exact ⟨htake _, h.rows, h.utf8⟩
    · exact ⟨printable_fillBlank h.line _ _, h.rows, h.utf8⟩
    · exact ⟨printable_nil, h.rows, h.utf8⟩
    · exact h
  · exact h.keep rfl rfl rfl
  · exact h.keep rfl rfl rfl
  · exact h.keep rfl rfl rfl
  · exact h.keep rfl rfl rfl
  · exact h.keep rfl rfl rfl
  · exact ⟨(htake _).append (hdrop _), h.rows, h.utf8⟩
  · refine ⟨?_, h.rows, h.utf8⟩
    apply h.line.of_subset
    intro character hmem
    have hmem' := List.mem_of_mem_take hmem
    have hwide (hwide : character ∈ t.line ++ List.replicate (t.cursor - t.line.length) ' ') :
        character ∈ t.line ∨ character = ' ' := by
      rcases List.mem_append.mp hwide with hmem | hmem
      · exact .inl hmem
      · exact .inr (mem_blanks hmem)
    rcases List.mem_append.mp hmem' with hmem' | hmem'
    · rcases List.mem_append.mp hmem' with hmem' | hmem'
      · exact hwide (List.mem_of_mem_take hmem')
      · exact .inr (mem_blanks hmem')
    · exact hwide (List.mem_of_mem_drop hmem')
  · exact ⟨printable_fillBlank h.line _ _, h.rows, h.utf8⟩
  · exact h.keep rfl rfl rfl
  · exact h.keep rfl rfl rfl
  · exact h

/-! ## Bytes -/

theorem scan_of_not_char {bytes : Bytes} (h : ∀ character width, head bytes ≠ .char character width) :
    (scan bytes).chars = [] := by
  cases bytes with
  | nil => rfl
  | cons first rest =>
      cases hhead : head (first :: rest) with
      | char character width => exact absurd hhead (h character width)
      | invalid length => rw [scan_invalid hhead]
      | incomplete => rw [scan_incomplete (by simp) hhead]

/-- Behind the first byte of an unfinished character no character starts. -/
theorem scan_tails {tails : Bytes} {byte : UInt8} (h : ∀ tail ∈ tails, isTail tail = true)
    (hbyte : 0x80 ≤ byte) : (scan (tails ++ [byte])).chars = [] := by
  apply scan_of_not_char
  intro character width
  cases tails with
  | nil =>
      rcases head_high hbyte with hhead | hhead <;> simp [hhead]
  | cons first rest =>
      have hle (a b : UInt8) : a ≤ b ↔ a.toNat ≤ b.toNat := UInt8.le_iff_toNat_le
      have hlt (a b : UInt8) : a < b ↔ a.toNat < b.toNat := UInt8.lt_iff_toNat_lt
      have htail := h first List.mem_cons_self
      have hnone : Utf8Scan.width first = 0 := by
        simp only [isTail, Bool.and_eq_true, decide_eq_true_eq, hle, UInt8.reduceToNat] at htail
        unfold Utf8Scan.width
        simp only [hle, hlt, UInt8.reduceToNat]
        rw [if_neg (by omega), if_neg (by omega), if_neg (by omega), if_neg (by omega)]
      simp [head, hnone]

/-- An unfinished character is one byte and tails. -/
theorem tails_of_incomplete {bytes : Bytes} (h : head bytes = .incomplete) :
    ∀ byte ∈ bytes.tail, isTail byte = true := by
  have htails := (unit_tails bytes).2.2
  have hunit : (unit bytes).2 = bytes.length := by simp [unit, h]
  rw [hunit, List.take_length] at htails
  exact htails

/-- One more byte behind an unfinished character. -/
theorem Prints.snoc (h : Prints t) {byte : UInt8} (hhead : head t.utf8 = .incomplete)
    (hbyte : 0x80 ≤ byte) (hc1 : ¬ DecodesC1 t byte) :
    Prints { t with utf8 := t.utf8 ++ [byte] } where
  line := h.line
  rows := h.rows
  utf8 := by
    intro count
    by_cases hwhole : count = 0 ∧ t.utf8 ≠ []
    · obtain ⟨rfl, hsome⟩ := hwhole
      rw [List.drop_zero]
      rcases head_snoc byte hsome hhead with ⟨character, hchar⟩ | hopen | hinvalid
      · rw [scan_char hchar]
        intro other hmem hcontrol
        rw [List.mem_singleton.mp hmem] at hcontrol
        obtain ⟨hwritten, -⟩ := written_of_head hchar
        rw [List.take_length] at hwritten
        rcases hwritten.isControl_iff.mp hcontrol with ⟨single, heq, -⟩ | ⟨tail, heq, htail⟩
        · have hlength := congrArg List.length heq
          have hpos := List.length_pos_of_ne_nil hsome
          simp only [List.length_append, List.length_cons, List.length_nil] at hlength
          omega
        · have hsplit : t.utf8 ++ [byte] = [0xc2] ++ [tail] := heq
          obtain ⟨hheld, hlast⟩ := List.append_inj' hsplit rfl
          cases hlast
          exact hc1 ⟨hheld, htail⟩
      · rw [scan_incomplete (by simp) hopen]
        exact printable_nil
      · rw [scan_invalid hinvalid]
        exact printable_nil
    · have htails : ∀ tail ∈ t.utf8.drop count, isTail tail = true := by
        intro tail hmem
        apply tails_of_incomplete hhead tail
        cases count with
        | zero =>
            have hnil : t.utf8 = [] := by simpa using hwhole
            rw [hnil] at hmem
            cases hmem
        | succ count =>
            rw [Nat.add_comm, ← List.drop_drop, List.drop_one] at hmem
            exact List.mem_of_mem_drop hmem
      have hempty : (scan ((t.utf8 ++ [byte]).drop count)).chars = [] := by
        by_cases hinside : count ≤ t.utf8.length
        · rw [List.drop_append_of_le_length hinside]
          exact scan_tails htails hbyte
        · have hnil : (t.utf8 ++ [byte]).drop count = [] := by
            apply List.drop_eq_nil_of_le
            rw [List.length_append, List.length_singleton]
            omega
          rw [hnil, scan_nil]
      rw [hempty]
      exact printable_nil

theorem Prints.consumePlain {byte : UInt8} {turns : ℕ} (h : Prints t)
    (hhead : head t.utf8 = .incomplete) (hhigh : t.utf8 ≠ [] → 0x80 ≤ byte)
    (hc1 : ¬ DecodesC1 t byte) (hconsume : consumePlain byte t turns = some t') : Prints t' := by
  have hle (a b : UInt8) : a ≤ b ↔ a.toNat ≤ b.toNat := UInt8.le_iff_toNat_le
  unfold TerminalText.consumePlain at hconsume
  split_ifs at hconsume with hheld hescape hlf hcr herase htab hcontrol hplain
  · exact (h.snoc hhead (hhigh hheld) hc1).drainUtf8 hconsume
  · cases hconsume
    exact h.keep rfl rfl rfl
  · exact h.commitRow hconsume
  · cases hconsume
    exact h.keep rfl rfl rfl
  · cases hconsume
    exact h.keep rfl rfl rfl
  · exact h.tabTo hconsume
  · cases hconsume
    exact h
  · refine h.writeChar hconsume ?_
    simp only [hle, UInt8.reduceToNat] at hcontrol hplain
    unfold IsControl
    rw [toNat_ofNat (.inl (by omega))]
    omega
  · refine (h.snoc hhead ?_ hc1).drainUtf8 hconsume
    have hdelete : byte.toNat ≠ 0x7f :=
      fun heq => herase (.inr (UInt8.toNat_inj.mp heq))
    simp only [hle, UInt8.reduceToNat] at hplain ⊢
    omega

theorem Prints.consumeGround {byte : UInt8} {turns : ℕ} (h : Prints t)
    (hhead : head t.utf8 = .incomplete) (hc1 : ¬ DecodesC1 t byte)
    (hconsume : consumeGround byte t turns = some t') : Prints t' := by
  unfold TerminalText.consumeGround at hconsume
  split_ifs at hconsume with hbroken
  · obtain ⟨t₁, hdrained, hrest⟩ := Option.bind_eq_some_iff.mp hconsume
    have hflushed : t₁ = t.flushed := by
      have hmore := drainUtf8_more hdrained 6
      rw [drainUtf8_flushed turns (.inr ⟨hbroken.1, .inl hhead⟩)] at hmore
      exact (Option.some.inj hmore).symm
    have hempty : t₁.utf8 = [] := by
      rw [hflushed]
      exact utf8_flushed
    have hhead' : head t₁.utf8 = .incomplete := by
      rw [hempty]
      rfl
    refine (h.drainUtf8 hdrained).consumePlain hhead' (fun hsome => absurd hempty hsome) ?_ hrest
    rintro ⟨hheld, -⟩
    rw [hempty] at hheld
    cases hheld
  · refine h.consumePlain hhead (fun hsome => ?_) hc1 hconsume
    exact UInt8.not_lt.mp (fun hlow => hbroken ⟨hsome, hlow⟩)

theorem Prints.recoverEscapeWith {byte : UInt8} {turns : ℕ} (h : Prints t)
    (hhead : head t.utf8 = .incomplete) (hc1 : ¬ DecodesC1 t byte)
    (hconsume : recoverEscapeWith byte t turns = some t') : Prints t' := by
  have hreset : Prints t.resetEscape := h.keep rfl rfl rfl
  exact hreset.consumeGround hhead hc1 hconsume

theorem Prints.bumpControlString (h : Prints t) : Prints t.bumpControlString.2 := by
  unfold TerminalText.bumpControlString
  dsimp only
  split_ifs
  · exact h.keep rfl rfl rfl
  · exact h.keep rfl rfl rfl

theorem Prints.consumeEscape {byte : UInt8} {turns : ℕ} (h : Prints t)
    (hhead : head t.utf8 = .incomplete) (hc1 : ¬ DecodesC1 t byte)
    (hconsume : consumeEscape byte t turns = some t') : Prints t' := by
  have hescape {terminal : TerminalText} (hterminal : Prints terminal) (state : EscapeState) :
      Prints { terminal with escape := state } := hterminal.keep rfl rfl rfl
  have hreset : Prints t.resetEscape := h.keep rfl rfl rfl
  unfold TerminalText.consumeEscape at hconsume
  by_cases hcancel : byte = 0x18 ∨ byte = 0x1a
  · rw [if_pos hcancel] at hconsume
    cases hconsume
    exact hreset
  rw [if_neg hcancel] at hconsume
  cases hstate : t.escape with
  | ground =>
      simp only [hstate] at hconsume
      cases hconsume
  | escape =>
      simp only [hstate] at hconsume
      split_ifs at hconsume <;> cases hconsume <;> exact h.keep rfl rfl rfl
  | escapeIntermediate =>
      simp only [hstate] at hconsume
      split_ifs at hconsume
      · cases hconsume
        exact h.keep rfl rfl rfl
      · exact h.recoverEscapeWith hhead hc1 hconsume
      · cases hconsume
        exact h.keep rfl rfl rfl
      · cases hconsume
        exact h.keep rfl rfl rfl
      · cases hconsume
        exact hreset
      · exact h.recoverEscapeWith hhead hc1 hconsume
  | csi =>
      simp only [hstate] at hconsume
      split_ifs at hconsume
      · cases hconsume
        exact h.keep rfl rfl rfl
      · exact h.recoverEscapeWith hhead hc1 hconsume
      · cases hconsume
        exact hreset.applyCsi byte _
      · cases hconsume
        exact h.keep rfl rfl rfl
      · cases hconsume
        exact hreset
      · exact h.recoverEscapeWith hhead hc1 hconsume
  | controlString =>
      simp only [hstate] at hconsume
      split_ifs at hconsume
      · cases hconsume
        exact hreset
      · exact h.recoverEscapeWith hhead hc1 hconsume
      · cases hconsume
        exact hescape h.bumpControlString _
      · cases hconsume
        exact h.bumpControlString
  | controlStringEscape =>
      simp only [hstate] at hconsume
      split_ifs at hconsume
      · cases hconsume
        exact hreset
      · exact h.recoverEscapeWith hhead hc1 hconsume
      · cases hconsume
        exact hescape h.bumpControlString _
      · cases hconsume
        exact h.bumpControlString

/-- A byte writes no control character, unless it completes a C1 control. -/
theorem Prints.consume {byte : UInt8} {turns : ℕ} (h : Prints t)
    (hhead : head t.utf8 = .incomplete) (hc1 : ¬ DecodesC1 t byte)
    (hconsume : consume byte t turns = some t') : Prints t' := by
  unfold TerminalText.consume at hconsume
  split_ifs at hconsume
  · exact h.consumeGround hhead hc1 hconsume
  · exact h.consumeEscape hhead hc1 hconsume

theorem Prints.finishInput {turns : ℕ} (h : Prints t) (hfinish : finishInput t turns = some t') :
    Prints t' := by
  obtain ⟨t₁, hdrained, hrest⟩ := Option.bind_eq_some_iff.mp hfinish
  cases hrest
  exact (h.drainUtf8 hdrained).keep rfl rfl rfl

end

end SerialPlatform.Display.TerminalText
