import SerialPlatform.CommandEcho

/-!
# Where an echo is found

What counts as an echo of a command is a judgement on bytes: the command's own bytes, with
hard wraps before some of them and line feeds expanded.  The scan decides the judgement
without backtracking, and an echo which starts later never ends earlier, so that bytes
received later change nothing but the line end behind a complete echo.
-/

namespace SerialPlatform.Capture

/-! ## Echoes -/

def columnAfter (column : ℕ) (byte : UInt8) : ℕ := if byte = lf then 0 else column + 1

/-- The physical column behind some bytes. -/
def columnBehind (bytes : Bytes) : ℕ := bytes.foldl columnAfter 0

/-- The bytes are the echo of the rest of a command, from a column on; the flag says
whether they hold a plain wrap. -/
inductive Echoed : ℕ → Bytes → Bytes → Bool → Prop
  | done {column : ℕ} : Echoed column [] [] false
  | same {column : ℕ} {byte : UInt8} {command bytes : Bytes} {ambiguous : Bool}
      (h : Echoed (columnAfter column byte) command bytes ambiguous) :
      Echoed column (byte :: command) (byte :: bytes) ambiguous
  | lineFeed {column : ℕ} {command bytes : Bytes} {ambiguous : Bool}
      (h : Echoed 0 command bytes ambiguous) :
      Echoed column (lf :: command) (cr :: lf :: bytes) ambiguous
  | distinctWrap {column : ℕ} {byte : UInt8} {command bytes : Bytes} {ambiguous : Bool}
      (hbyte : byte ≠ cr ∧ byte ≠ lf) (h : Echoed 0 (byte :: command) bytes ambiguous) :
      Echoed column (byte :: command) (cr :: cr :: lf :: bytes) ambiguous
  | plainWrap {column : ℕ} {byte : UInt8} {command bytes : Bytes} {ambiguous : Bool}
      (hbyte : byte ≠ cr ∧ byte ≠ lf) (hcolumn : minPlainCrlfHardWrapColumn ≤ column)
      (h : Echoed 0 (byte :: command) bytes ambiguous) :
      Echoed column (byte :: command) (cr :: lf :: bytes) true

/-- The line end behind the echo of a command which ends with `\r`. -/
def trailingLineEnd (expected behind : Bytes) : Bytes :=
  if expected.getLast? = some cr then
    if crLf.isPrefixOf behind then crLf
    else if [lf].isPrefixOf behind then [lf]
    else []
  else []

/-- The first byte of the command and the echo of the others, between two places. -/
def EchoesAt (actual expected : Bytes) (start stop : ℕ) (ambiguous : Bool) : Prop :=
  ∃ first command bytes, expected = first :: command ∧ first :: bytes <+: actual.drop start ∧
    Echoed (columnAfter (columnBehind (actual.take start)) first) command bytes ambiguous ∧
    stop = start + (bytes.length + 1)

/-- A complete echo starts here, with the line end behind it. -/
def IsEcho (actual expected : Bytes) (start : ℕ) (found : EchoMatch) : Prop :=
  ∃ stop, EchoesAt actual expected start stop found.ambiguousPlainCrlfWrap ∧
    found.stop = stop + (trailingLineEnd expected (actual.drop stop)).length

section

variable {actual expected command bytes : Bytes} {start index column : ℕ} {byte : UInt8}
  {ambiguous : Bool} {scan : EchoScan}

/-! ## The column -/

theorem columnBehind_append (bytes : Bytes) (byte : UInt8) :
    columnBehind (bytes ++ [byte]) = columnAfter (columnBehind bytes) byte :=
  List.foldl_concat ..

theorem columnBehind_eq (bytes : Bytes) :
    columnBehind bytes = (bytes.reverse.takeWhile (· ≠ lf)).length := by
  induction bytes using List.reverseRecOn with
  | nil => rfl
  | append_singleton bytes byte ih =>
      rw [columnBehind_append, ih, List.reverse_concat, List.takeWhile_cons]
      unfold columnAfter
      by_cases hfeed : byte = lf
      · simp [hfeed]
      · simp [hfeed]

theorem columnBehind_le (bytes : Bytes) : columnBehind bytes ≤ bytes.length := by
  rw [columnBehind_eq]
  exact (List.takeWhile_sublist _).length_le.trans_eq List.length_reverse

theorem take_succ_of_drop {rest : Bytes} (h : actual.drop index = byte :: rest) :
    actual.take (index + 1) = actual.take index ++ [byte] ∧ actual.drop (index + 1) = rest := by
  have hget : actual[index]? = some byte := by
    rw [← List.head?_drop, h]
    rfl
  constructor
  · rw [List.take_add_one, hget]
    rfl
  · rw [← List.drop_drop, h]
    rfl

/-! ## The scan decides the judgement -/

/-- The scan knows the column at which it is. -/
structure EchoScan.Fits (actual : Bytes) (scan : EchoScan) : Prop where
  inside : scan.physicalLineStart ≤ scan.actualIndex
  column : scan.actualIndex - scan.physicalLineStart =
    columnBehind (actual.take scan.actualIndex)

theorem EchoScan.Fits.next (h : scan.Fits actual) {rest : Bytes}
    (hrest : actual.drop scan.actualIndex = byte :: rest) (expectedIndex : ℕ) :
    EchoScan.Fits actual {
      scan with
      actualIndex := scan.actualIndex + 1
      expectedIndex := expectedIndex
      physicalLineStart :=
        if byte = lf then scan.actualIndex + 1 else scan.physicalLineStart } := by
  obtain ⟨hinside, hcolumn⟩ := h
  constructor
  · dsimp only
    split_ifs
    · exact le_refl _
    · omega
  · dsimp only
    rw [(take_succ_of_drop hrest).1, columnBehind_append, ← hcolumn]
    unfold columnAfter
    split_ifs
    · omega
    · omega

theorem isPrefixOf_crLf : crLf.isPrefixOf actual = true ↔ ∃ rest, actual = cr :: lf :: rest := by
  rw [List.isPrefixOf_iff_prefix]
  constructor
  · rintro ⟨rest, rfl⟩
    exact ⟨rest, rfl⟩
  · rintro ⟨rest, rfl⟩
    exact ⟨rest, rfl⟩

theorem isPrefixOf_crCrLf :
    crCrLf.isPrefixOf actual = true ↔ ∃ rest, actual = cr :: cr :: lf :: rest := by
  rw [List.isPrefixOf_iff_prefix]
  constructor
  · rintro ⟨rest, rfl⟩
    exact ⟨rest, rfl⟩
  · rintro ⟨rest, rfl⟩
    exact ⟨rest, rfl⟩

/-- One turn of the matching loop. -/
inductive EchoStep (actual expected : Bytes) (scan : EchoScan) : EchoScan → Prop
  | same {byte : UInt8} {command rest : Bytes}
      (hexpected : expected.drop scan.expectedIndex = byte :: command)
      (hactual : actual.drop scan.actualIndex = byte :: rest) :
      EchoStep actual expected scan {
        scan with
        actualIndex := scan.actualIndex + 1
        expectedIndex := scan.expectedIndex + 1
        physicalLineStart := if byte = lf then scan.actualIndex + 1 else scan.physicalLineStart }
  | expand {command rest : Bytes} (hexpected : expected.drop scan.expectedIndex = lf :: command)
      (hactual : actual.drop scan.actualIndex = cr :: lf :: rest) :
      EchoStep actual expected scan { scan with actualIndex := scan.actualIndex + 1 }
  | distinctWrap {byte : UInt8} {command rest : Bytes} (hstarted : 0 < scan.expectedIndex)
      (hexpected : expected.drop scan.expectedIndex = byte :: command)
      (hbyte : byte ≠ cr ∧ byte ≠ lf)
      (hactual : actual.drop scan.actualIndex = cr :: cr :: lf :: rest) :
      EchoStep actual expected scan {
        scan with
        actualIndex := scan.actualIndex + 3
        physicalLineStart := scan.actualIndex + 3 }
  | plainWrap {byte : UInt8} {command rest : Bytes} (hstarted : 0 < scan.expectedIndex)
      (hexpected : expected.drop scan.expectedIndex = byte :: command)
      (hbyte : byte ≠ cr ∧ byte ≠ lf)
      (hactual : actual.drop scan.actualIndex = cr :: lf :: rest)
      (hcolumn : minPlainCrlfHardWrapColumn ≤ scan.actualIndex - scan.physicalLineStart) :
      EchoStep actual expected scan {
        scan with
        actualIndex := scan.actualIndex + 2
        physicalLineStart := scan.actualIndex + 2
        ambiguous := true }

theorem getElem?_of_drop {rest : Bytes} (h : actual.drop index = byte :: rest) :
    actual[index]? = some byte := by
  rw [← List.head?_drop, h]
  rfl

theorem drop_of_getElem? (h : actual[index]? = some byte) :
    actual.drop index = byte :: actual.drop (index + 1) := by
  obtain ⟨hinside, rfl⟩ := List.getElem?_eq_some_iff.1 h
  exact List.drop_eq_getElem_cons hinside

variable {next : EchoScan}

theorem EchoStep.run (h : EchoStep actual expected scan next) (turns : ℕ) :
    scanEcho actual expected (turns + 1) scan = scanEcho actual expected turns next := by
  have hne : cr ≠ lf := by decide
  rw [scanEcho]
  cases h with
  | same hexpected hactual =>
      rw [getElem?_of_drop hexpected, getElem?_of_drop hactual]
      exact if_pos rfl
  | expand hexpected hactual =>
      rw [getElem?_of_drop hexpected, getElem?_of_drop hactual]
      exact (if_neg hne).trans (if_pos ⟨rfl, isPrefixOf_crLf.2 ⟨_, hactual⟩⟩)
  | distinctWrap hstarted hexpected hbyte hactual =>
      rw [getElem?_of_drop hexpected, getElem?_of_drop hactual]
      dsimp only
      rw [if_neg hbyte.1.symm, if_neg (fun h => hbyte.2 h.1), if_pos ⟨hstarted, hbyte⟩,
        echoedHardWrap, if_pos (isPrefixOf_crCrLf.2 ⟨_, hactual⟩)]
      simp [EchoedHardWrap.len]
  | plainWrap hstarted hexpected hbyte hactual hcolumn =>
      have hshort : ¬crCrLf.isPrefixOf (actual.drop scan.actualIndex) = true := by
        rw [isPrefixOf_crCrLf, hactual]
        rintro ⟨rest, hrest⟩
        cases hrest
      rw [getElem?_of_drop hexpected, getElem?_of_drop hactual]
      dsimp only
      rw [if_neg hbyte.1.symm, if_neg (fun h => hbyte.2 h.1), if_pos ⟨hstarted, hbyte⟩,
        echoedHardWrap, if_neg hshort, if_pos (isPrefixOf_crLf.2 ⟨_, hactual⟩)]
      dsimp only
      rw [if_neg (by rw [not_and, not_lt]; exact fun _ => hcolumn)]
      simp [EchoedHardWrap.len]

/-- The loop ends where it is, or goes on by one turn. -/
theorem scanEcho_succ (actual expected : Bytes) (turns : ℕ) (scan : EchoScan) :
    scanEcho actual expected (turns + 1) scan = scan ∨
      ∃ next, EchoStep actual expected scan next ∧
        scanEcho actual expected (turns + 1) scan = scanEcho actual expected turns next := by
  by_cases hstep : ∃ next, EchoStep actual expected scan next
  · obtain ⟨next, hnext⟩ := hstep
    exact .inr ⟨next, hnext, hnext.run turns⟩
  left
  rw [scanEcho]
  split
  case h_2 => rfl
  case h_1 wanted byte hwanted hbyte =>
    have hexpected := drop_of_getElem? hwanted
    have hactual := drop_of_getElem? hbyte
    have hdiffer : byte ≠ wanted := fun hsame =>
      hstep ⟨_, .same hexpected (hsame ▸ hactual)⟩
    rw [if_neg hdiffer]
    split_ifs with hfeed hinner
    · obtain ⟨rest, hrest⟩ := isPrefixOf_crLf.1 hfeed.2
      exact absurd ⟨_, .expand (hfeed.1 ▸ hexpected) hrest⟩ hstep
    · obtain ⟨hstarted, hplain⟩ := hinner
      unfold echoedHardWrap
      split_ifs with hlong hshort
      · obtain ⟨rest, hrest⟩ := isPrefixOf_crCrLf.1 hlong
        exact absurd ⟨_, .distinctWrap hstarted hexpected hplain hrest⟩ hstep
      · obtain ⟨rest, hrest⟩ := isPrefixOf_crLf.1 hshort
        dsimp only
        rw [if_pos]
        refine ⟨rfl, not_le.1 fun hcolumn => ?_⟩
        exact hstep ⟨_, .plainWrap hstarted hexpected hplain hrest hcolumn⟩
      · rfl
    · rfl

/-- The column behind a line feed. -/
theorem columnBehind_line {rest : Bytes} (h : actual.drop index = bytes ++ lf :: rest) :
    columnBehind (actual.take (index + (bytes.length + 1))) = 0 := by
  have hline : (bytes ++ lf :: rest).take (bytes.length + 1) = bytes ++ [lf] := by
    rw [List.take_length_add_append]
    rfl
  rw [List.take_add, h, hline, ← List.append_assoc, columnBehind_append]
  exact if_pos rfl

theorem EchoStep.fits (h : EchoStep actual expected scan next) (hfits : scan.Fits actual) :
    next.Fits actual := by
  cases h with
  | same hexpected hactual => exact hfits.next hactual _
  | expand hexpected hactual => exact hfits.next hactual _
  | distinctWrap hstarted hexpected hbyte hactual =>
      refine ⟨le_refl _, ?_⟩
      dsimp only
      rw [Nat.sub_self]
      exact (@columnBehind_line _ [cr, cr] _ _ hactual).symm
  | plainWrap hstarted hexpected hbyte hactual hcolumn =>
      refine ⟨le_refl _, ?_⟩
      dsimp only
      rw [Nat.sub_self]
      exact (@columnBehind_line _ [cr] _ _ hactual).symm

/-- The scan has gone over an echo of what was left of the command. -/
def Completes (actual expected : Bytes) (scan final : EchoScan) : Prop :=
  ∃ bytes ambiguous, bytes <+: actual.drop scan.actualIndex ∧
    Echoed (columnBehind (actual.take scan.actualIndex)) (expected.drop scan.expectedIndex) bytes
      ambiguous ∧
    final.actualIndex = scan.actualIndex + bytes.length ∧
    final.ambiguous = (scan.ambiguous || ambiguous)

theorem EchoStep.completes (h : EchoStep actual expected scan next) (hfits : scan.Fits actual)
    {final : EchoScan} (hrest : Completes actual expected next final) :
    Completes actual expected scan final := by
  obtain ⟨bytes, ambiguous, hbytes, hechoed, hindex, hflag⟩ := hrest
  cases h with
  | @same byte command rest hexpected hactual =>
      obtain ⟨htaken, hdrop⟩ := take_succ_of_drop hactual
      dsimp only at hbytes hechoed hindex hflag
      rw [(take_succ_of_drop hexpected).2, htaken, columnBehind_append] at hechoed
      refine ⟨byte :: bytes, ambiguous, ?_, ?_, ?_, hflag⟩
      · rw [hactual, List.cons_prefix_cons]
        exact ⟨rfl, hdrop ▸ hbytes⟩
      · rw [hexpected]
        exact .same hechoed
      · rw [hindex, List.length_cons]
        omega
  | @expand command rest hexpected hactual =>
      obtain ⟨htaken, hdrop⟩ := take_succ_of_drop hactual
      dsimp only at hbytes hechoed hindex hflag
      rw [hdrop] at hbytes
      rw [hexpected, htaken, columnBehind_append] at hechoed
      -- the line feed which was looked at is the next byte of the echo
      cases hechoed with
      | @same _ _ _ bytes _ hechoed =>
          refine ⟨cr :: lf :: bytes, ambiguous, ?_, ?_, ?_, hflag⟩
          · rw [hactual, List.cons_prefix_cons]
            exact ⟨rfl, hbytes⟩
          · rw [hexpected]
            exact .lineFeed hechoed
          · rw [hindex]
            simp only [List.length_cons]
            omega
      | lineFeed hechoed => exact absurd (List.cons_prefix_cons.1 hbytes).1 (by decide)
      | distinctWrap hbyte => exact absurd rfl hbyte.2
      | plainWrap hbyte => exact absurd rfl hbyte.2
  | @distinctWrap byte command rest hstarted hexpected hbyte hactual =>
      have hdrop : actual.drop (scan.actualIndex + 3) = rest := by
        rw [← List.drop_drop, hactual]
        rfl
      dsimp only at hbytes hechoed hindex hflag
      have hcolumn : columnBehind (actual.take (scan.actualIndex + 3)) = 0 :=
        @columnBehind_line _ [cr, cr] _ _ hactual
      rw [hdrop] at hbytes
      rw [hexpected, hcolumn] at hechoed
      refine ⟨cr :: cr :: lf :: bytes, ambiguous, ?_, ?_, ?_, hflag⟩
      · rw [hactual]
        simpa using hbytes
      · rw [hexpected]
        exact .distinctWrap hbyte hechoed
      · rw [hindex]
        simp only [List.length_cons]
        omega
  | @plainWrap byte command rest hstarted hexpected hbyte hactual hcolumn =>
      have hdrop : actual.drop (scan.actualIndex + 2) = rest := by
        rw [← List.drop_drop, hactual]
        rfl
      dsimp only at hbytes hechoed hindex hflag
      have hnew : columnBehind (actual.take (scan.actualIndex + 2)) = 0 :=
        @columnBehind_line _ [cr] _ _ hactual
      rw [hdrop] at hbytes
      rw [hexpected, hnew] at hechoed
      refine ⟨cr :: lf :: bytes, true, ?_, ?_, ?_, ?_⟩
      · rw [hactual]
        simpa using hbytes
      · rw [hexpected]
        exact .plainWrap hbyte (hfits.column ▸ hcolumn) hechoed
      · rw [hindex]
        simp only [List.length_cons]
        omega
      · rw [hflag, Bool.true_or, Bool.or_true]

theorem completes_of_end (hend : scan.expectedIndex = expected.length) :
    Completes actual expected scan scan := by
  refine ⟨[], false, List.nil_prefix, ?_, rfl, (Bool.or_false _).symm⟩
  rw [hend, List.drop_length]
  exact .done

theorem scanEcho_sound (turns : ℕ) (hfits : scan.Fits actual)
    (hcomplete : (scanEcho actual expected turns scan).expectedIndex = expected.length) :
    Completes actual expected scan (scanEcho actual expected turns scan) := by
  induction turns generalizing scan with
  | zero => exact completes_of_end hcomplete
  | succ turns ih =>
      rcases scanEcho_succ actual expected turns scan with hstop | ⟨next, hstep, hrun⟩
      · rw [hstop] at hcomplete ⊢
        exact completes_of_end hcomplete
      · rw [hrun] at hcomplete ⊢
        exact hstep.completes hfits (ih (hstep.fits hfits) hcomplete)

theorem scanEcho_of_end (turns : ℕ) (hend : expected.drop scan.expectedIndex = []) :
    scanEcho actual expected turns scan = scan := by
  cases turns with
  | zero => rfl
  | succ turns =>
      rcases scanEcho_succ actual expected turns scan with hstop | ⟨next, hstep, -⟩
      · exact hstop
      · cases hstep with
        | same hexpected | expand hexpected | distinctWrap _ hexpected | plainWrap _ hexpected =>
            rw [hend] at hexpected
            cases hexpected

/-- The scan goes over the echo which is there. -/
theorem scanEcho_complete {final : EchoScan} (hechoed : Echoed column command bytes ambiguous)
    (turns : ℕ) (hturns : bytes.length ≤ turns) (hfits : scan.Fits actual)
    (hcolumn : columnBehind (actual.take scan.actualIndex) = column)
    (hstarted : 0 < scan.expectedIndex) (hinside : scan.expectedIndex ≤ expected.length)
    (hexpected : expected.drop scan.expectedIndex = command)
    (hbytes : bytes <+: actual.drop scan.actualIndex)
    (hfinal : scanEcho actual expected turns scan = final) :
    final.expectedIndex = expected.length ∧
      final.actualIndex = scan.actualIndex + bytes.length ∧
      final.ambiguous = (scan.ambiguous || ambiguous) := by
  induction hechoed generalizing scan turns with
  | done =>
      rw [scanEcho_of_end turns hexpected] at hfinal
      subst hfinal
      have hend := List.drop_eq_nil_iff.1 hexpected
      exact ⟨by omega, rfl, (Bool.or_false _).symm⟩
  | @same column byte command bytes ambiguous h ih =>
      obtain ⟨rest, hactual⟩ := hbytes
      obtain ⟨turns, rfl⟩ : ∃ fewer, turns = fewer + 1 :=
        Nat.exists_eq_add_one_of_ne_zero (by rw [List.length_cons] at hturns; omega)
      have hstep : EchoStep actual expected scan _ := .same hexpected hactual.symm
      obtain ⟨htaken, hdrop⟩ := take_succ_of_drop hactual.symm
      have hshorter := congrArg List.length hexpected
      rw [hstep.run turns] at hfinal
      have hrest := ih turns (Nat.le_of_succ_le_succ hturns) (hstep.fits hfits)
        (by rw [htaken, columnBehind_append, hcolumn]) (Nat.succ_pos _)
        (by simp only [List.length_drop, List.length_cons] at hshorter ⊢; omega)
        (take_succ_of_drop hexpected).2 (hdrop ▸ List.prefix_append _ _) hfinal
      exact ⟨hrest.1, by rw [hrest.2.1]; simp only [List.length_cons]; omega, hrest.2.2⟩
  | @lineFeed column command bytes ambiguous h ih =>
      obtain ⟨rest, hactual⟩ := hbytes
      obtain ⟨turns, rfl⟩ : ∃ fewer, turns = fewer + 2 :=
        Nat.exists_eq_add_of_le' (by simp only [List.length_cons] at hturns; omega)
      have hskip : EchoStep actual expected scan _ := .expand hexpected hactual.symm
      obtain ⟨hskipped, hbehind⟩ := take_succ_of_drop hactual.symm
      have hfeed : EchoStep actual expected { scan with actualIndex := scan.actualIndex + 1 } _ :=
        .same hexpected hbehind
      obtain ⟨htaken, hdrop⟩ := take_succ_of_drop hbehind
      have hshorter := congrArg List.length hexpected
      rw [hskip.run (turns + 1), hfeed.run turns] at hfinal
      have hrest := ih turns (by simp only [List.length_cons] at hturns; omega)
        (hfeed.fits (hskip.fits hfits)) (by rw [htaken, columnBehind_append]; rfl)
        (Nat.succ_pos _) (by simp only [List.length_drop, List.length_cons] at hshorter ⊢; omega)
        (take_succ_of_drop hexpected).2 (hdrop ▸ List.prefix_append _ _) hfinal
      exact ⟨hrest.1, by rw [hrest.2.1]; simp only [List.length_cons]; omega, hrest.2.2⟩
  | @distinctWrap column byte command bytes ambiguous hbyte h ih =>
      obtain ⟨rest, hactual⟩ := hbytes
      obtain ⟨turns, rfl⟩ : ∃ fewer, turns = fewer + 1 :=
        Nat.exists_eq_add_one_of_ne_zero (by simp only [List.length_cons] at hturns; omega)
      have hstep : EchoStep actual expected scan _ :=
        .distinctWrap hstarted hexpected hbyte hactual.symm
      have hnew : columnBehind (actual.take (scan.actualIndex + 3)) = 0 :=
        @columnBehind_line _ [cr, cr] _ _ hactual.symm
      have hdrop : actual.drop (scan.actualIndex + 3) = bytes ++ rest := by
        rw [← List.drop_drop, ← hactual]
        rfl
      rw [hstep.run turns] at hfinal
      have hrest := ih turns (by simp only [List.length_cons] at hturns; omega)
        (hstep.fits hfits) hnew hstarted hinside hexpected (hdrop ▸ List.prefix_append _ _) hfinal
      exact ⟨hrest.1, by rw [hrest.2.1]; simp only [List.length_cons]; omega, hrest.2.2⟩
  | @plainWrap column byte command bytes ambiguous hbyte hwide h ih =>
      obtain ⟨rest, hactual⟩ := hbytes
      obtain ⟨turns, rfl⟩ : ∃ fewer, turns = fewer + 1 :=
        Nat.exists_eq_add_one_of_ne_zero (by simp only [List.length_cons] at hturns; omega)
      have hstep : EchoStep actual expected scan _ :=
        .plainWrap hstarted hexpected hbyte hactual.symm (hfits.column ▸ hcolumn ▸ hwide)
      have hnew : columnBehind (actual.take (scan.actualIndex + 2)) = 0 :=
        @columnBehind_line _ [cr] _ _ hactual.symm
      have hdrop : actual.drop (scan.actualIndex + 2) = bytes ++ rest := by
        rw [← List.drop_drop, ← hactual]
        rfl
      rw [hstep.run turns] at hfinal
      have hrest := ih turns (by simp only [List.length_cons] at hturns; omega)
        (hstep.fits hfits) hnew hstarted hinside hexpected (hdrop ▸ List.prefix_append _ _) hfinal
      refine ⟨hrest.1, by rw [hrest.2.1]; simp only [List.length_cons]; omega, ?_⟩
      rw [hrest.2.2, Bool.true_or, Bool.or_true]

/-! ## One start -/

theorem skipLineEnd_eq (actual expected : Bytes) (index : ℕ) :
    skipLineEnd actual expected index =
      index + (trailingLineEnd expected (actual.drop index)).length := by
  unfold skipLineEnd trailingLineEnd
  split_ifs <;> rfl

theorem lineStart_fits {rest : Bytes} (h : actual.drop start = byte :: rest) :
    EchoScan.Fits actual
      ⟨start + 1, 1, if byte = lf then start + 1 else lineStartBefore actual start, false⟩ := by
  have hstart : start ≤ actual.length := by
    have hlength := congrArg List.length h
    simp only [List.length_drop, List.length_cons] at hlength
    omega
  have hbound := columnBehind_le (actual.take start)
  rw [columnBehind_eq, List.length_take, min_eq_left hstart] at hbound
  have hfits : EchoScan.Fits actual ⟨start, 0, lineStartBefore actual start, false⟩ := by
    constructor
    · exact Nat.sub_le _ _
    · dsimp only
      rw [columnBehind_eq]
      exact Nat.sub_sub_self hbound
  exact hfits.next h 1

/-- The match which starts here is an echo, and every echo is matched. -/
theorem echoAt_iff (first : UInt8) (found : EchoMatch) :
    echoAt actual (first :: command) start = some found ↔
      IsEcho actual (first :: command) start found := by
  have hscan : ∀ {rest : Bytes}, actual.drop start = first :: rest →
      scanEcho actual (first :: command) (actual.length + 1)
        ⟨start, 0, lineStartBefore actual start, false⟩ =
      scanEcho actual (first :: command) actual.length
        ⟨start + 1, 1, if first = lf then start + 1 else lineStartBefore actual start, false⟩ := by
    intro rest hactual
    have hstep : EchoStep actual (first :: command)
      ⟨start, 0, lineStartBefore actual start, false⟩ _ := .same rfl hactual
    exact hstep.run actual.length
  have hsum : ∀ bytes : Bytes, start + 1 + bytes.length = start + (bytes.length + 1) := by
    intro bytes
    omega
  unfold echoAt
  constructor
  · intro hfound
    split_ifs at hfound with hfirst
    rw [not_ne_iff] at hfirst
    have hactual := drop_of_getElem? (hfirst.trans rfl)
    dsimp only at hfound
    split_ifs at hfound with hcomplete
    rw [hscan hactual] at hcomplete hfound
    obtain ⟨bytes, ambiguous, hbytes, hechoed, hindex, hflag⟩ :=
      scanEcho_sound actual.length (lineStart_fits hactual) hcomplete
    dsimp only at hbytes hechoed hindex hflag
    rw [Bool.false_or] at hflag
    rw [(take_succ_of_drop hactual).1, columnBehind_append] at hechoed
    refine ⟨start + (bytes.length + 1), ⟨first, command, bytes, rfl, ?_, ?_, rfl⟩, ?_⟩
    · rw [hactual, List.cons_prefix_cons]
      exact ⟨rfl, hbytes⟩
    · rw [← Option.some.inj hfound, hflag]
      exact hechoed
    · rw [← Option.some.inj hfound, skipLineEnd_eq, hindex, hsum bytes]
  · rintro ⟨_, ⟨_, _, bytes, hexpected, hbytes, hechoed, rfl⟩, hstop⟩
    obtain ⟨rfl, rfl⟩ := List.cons.inj hexpected
    obtain ⟨rest, hactual⟩ := hbytes
    have hactual := hactual.symm
    have hlength : bytes.length ≤ actual.length := by
      have hlengths := congrArg List.length hactual
      simp only [List.length_drop, List.cons_append, List.length_cons, List.length_append]
        at hlengths
      omega
    obtain ⟨htaken, hdrop⟩ := take_succ_of_drop hactual
    have hone : 1 ≤ (first :: command).length := Nat.succ_le_succ (Nat.zero_le _)
    obtain ⟨hend, hindex, hflag⟩ := scanEcho_complete hechoed actual.length hlength
      (lineStart_fits hactual) (by rw [htaken, columnBehind_append]) Nat.one_pos hone rfl
      (hdrop ▸ List.prefix_append _ _) rfl
    have hfirst : actual[start]? = (first :: command)[0]? := getElem?_of_drop hactual
    rw [if_neg (not_ne_iff.2 hfirst)]
    dsimp only at hindex hflag ⊢
    rw [hscan hactual, if_pos hend, skipLineEnd_eq, hindex, hflag, Bool.false_or, hsum bytes,
      ← hstop]

/-! ## A later start ends no earlier -/

/-- One byte of an echo, and what is left of the command behind it. -/
inductive Takes : Bytes → UInt8 → Bytes → Prop
  | same {byte : UInt8} {command : Bytes} : Takes (byte :: command) byte command
  | expand {command : Bytes} : Takes (lf :: command) cr (lf :: command)
  | wrap {byte passed : UInt8} {command : Bytes} (hbyte : byte ≠ cr ∧ byte ≠ lf)
      (hpassed : passed = cr ∨ passed = lf) : Takes (byte :: command) passed (byte :: command)

/-- The bytes of an echo one after the other. -/
inductive TakesAll : Bytes → Bytes → Bytes → Prop
  | nil {command : Bytes} : TakesAll command [] command
  | cons {command next left bytes : Bytes} {byte : UInt8} (h : Takes command byte next)
      (hrest : TakesAll next bytes left) : TakesAll command (byte :: bytes) left

theorem Echoed.takesAll (h : Echoed column command bytes ambiguous) :
    TakesAll command bytes [] := by
  induction h with
  | done => exact .nil
  | same _ ih => exact .cons .same ih
  | lineFeed _ ih => exact .cons .expand (.cons .same ih)
  | distinctWrap hbyte _ ih =>
      exact .cons (.wrap hbyte (.inl rfl))
        (.cons (.wrap hbyte (.inl rfl)) (.cons (.wrap hbyte (.inr rfl)) ih))
  | plainWrap hbyte _ _ ih =>
      exact .cons (.wrap hbyte (.inl rfl)) (.cons (.wrap hbyte (.inr rfl)) ih)

variable {command' next' left more : Bytes}

theorem Takes.suffix {next : Bytes} (h : Takes command byte next) :
    next = command ∨ command = byte :: next := by
  cases h with
  | same => exact .inr rfl
  | expand | wrap => exact .inl rfl

/-- The byte which the command wants next is taken from it. -/
theorem Takes.of_head {next : Bytes} (h : Takes (byte :: command) byte next) : next = command := by
  generalize hwhole : byte :: command = whole at h
  cases h with
  | same => exact (List.cons.inj hwhole).2.symm
  | expand => exact absurd (List.cons.inj hwhole).1 (by decide)
  | wrap hbyte hpassed =>
      obtain ⟨rfl, -⟩ := List.cons.inj hwhole
      exact absurd hpassed (not_or.2 hbyte)

/-- An echo which has more left stays behind one which has less. -/
theorem Takes.keeps_suffix {next : Bytes} (h : Takes command byte next)
    (h' : Takes command' byte next') (hsuffix : command' <:+ command) : next' <:+ next := by
  have hnext' : next' <:+ command' := by
    rcases h'.suffix with hsame | hshorter
    · rw [hsame]
    · rw [hshorter]
      exact List.suffix_cons _ _
  rcases h.suffix with rfl | rfl
  · exact hnext'.trans hsuffix
  · rcases List.suffix_cons_iff.1 hsuffix with rfl | hinner
    · rw [h'.of_head]
    · exact hnext'.trans hinner

theorem TakesAll.suffix (h : TakesAll command bytes left) : left <:+ command := by
  induction h with
  | nil => exact List.suffix_refl _
  | cons h _ ih =>
      rcases h.suffix with rfl | rfl
      · exact ih
      · exact ih.trans (List.suffix_cons _ _)

theorem TakesAll.split (h : TakesAll command (bytes ++ more) left) :
    ∃ middle, TakesAll command bytes middle ∧ TakesAll middle more left := by
  induction bytes generalizing command with
  | nil => exact ⟨command, .nil, h⟩
  | cons byte bytes ih =>
      cases h with
      | cons hbyte hrest =>
          obtain ⟨middle, hfirst, hsecond⟩ := ih hrest
          exact ⟨middle, .cons hbyte hfirst, hsecond⟩

/-- Where one echo is complete, another with no more of the command left is complete too. -/
theorem TakesAll.no_more (h : TakesAll command bytes [])
    (h' : TakesAll command' (bytes ++ more) left) (hsuffix : command' <:+ command) :
    more = [] := by
  induction bytes generalizing command command' with
  | nil =>
      cases h
      rw [List.suffix_nil] at hsuffix
      subst hsuffix
      cases h' with
      | nil => rfl
      | cons hbyte => cases hbyte
  | cons byte bytes ih =>
      cases h with
      | cons hbyte hrest =>
          cases h' with
          | cons hbyte' hrest' => exact ih hrest hrest' (hbyte.keeps_suffix hbyte' hsuffix)

/-- An echo which starts earlier ends no later. -/
theorem EchoesAt.stop_le {earlier stop stop' : ℕ} {ambiguous' : Bool}
    (h : EchoesAt actual expected start stop ambiguous)
    (h' : EchoesAt actual expected earlier stop' ambiguous') (hearlier : earlier ≤ start) :
    stop' ≤ stop := by
  obtain ⟨first, command, bytes, rfl, hbytes, hechoed, rfl⟩ := h
  obtain ⟨_, _, bytes', hexpected, hbytes', hechoed', rfl⟩ := h'
  obtain ⟨rfl, rfl⟩ := List.cons.inj hexpected
  by_contra hlonger
  have htakes : TakesAll (first :: command) (first :: bytes) [] := .cons .same hechoed.takesAll
  have htakes' : TakesAll (first :: command) (first :: bytes') [] := .cons .same hechoed'.takesAll
  -- what the earlier echo holds from the later start on
  rw [← List.take_append_drop (start - earlier) (first :: bytes')] at htakes'
  obtain ⟨middle, hbefore, hbehind⟩ := htakes'.split
  have hrest : (first :: bytes').drop (start - earlier) <+: actual.drop start := by
    have hdropped := hbytes'.drop (start - earlier)
    rwa [List.drop_drop, Nat.add_sub_cancel' hearlier] at hdropped
  have hlong : (first :: bytes).length ≤ ((first :: bytes').drop (start - earlier)).length := by
    rw [List.length_drop, List.length_cons, List.length_cons]
    omega
  obtain ⟨more, hmore⟩ := List.prefix_of_prefix_length_le hbytes hrest hlong
  rw [← hmore] at hbehind
  have hnone := htakes.no_more hbehind hbefore.suffix
  have hequal := congrArg List.length hmore
  rw [hnone, List.append_nil, List.length_drop, List.length_cons, List.length_cons] at hequal
  omega

theorem EchoesAt.stop_le_length {stop : ℕ} (h : EchoesAt actual expected start stop ambiguous) :
    start < stop ∧ stop ≤ actual.length := by
  obtain ⟨first, command, bytes, -, hbytes, -, rfl⟩ := h
  have hlength := hbytes.length_le
  rw [List.length_drop, List.length_cons] at hlength
  omega

/-- Bytes behind an echo do not matter to it. -/
theorem echoesAt_append_iff {stop : ℕ} (hstop : stop ≤ actual.length) :
    EchoesAt (actual ++ more) expected start stop ambiguous ↔
      EchoesAt actual expected start stop ambiguous := by
  have hsame : ∀ {first : UInt8} {bytes : Bytes}, stop = start + (bytes.length + 1) →
      (first :: bytes <+: (actual ++ more).drop start ↔ first :: bytes <+: actual.drop start) ∧
        (actual ++ more).take start = actual.take start := by
    intro first bytes hlength
    constructor
    · rw [List.drop_append_of_le_length (by omega)]
      constructor
      · intro hlong
        apply List.prefix_of_prefix_length_le hlong (List.prefix_append _ _)
        rw [List.length_drop, List.length_cons]
        omega
      · exact fun hshort => hshort.trans (List.prefix_append _ _)
    · exact List.take_append_of_le_length (by omega)
  constructor
  · rintro ⟨first, command, bytes, hexpected, hbytes, hechoed, hlength⟩
    obtain ⟨hiff, htake⟩ := @hsame first bytes hlength
    exact ⟨first, command, bytes, hexpected, hiff.1 hbytes, htake ▸ hechoed, hlength⟩
  · rintro ⟨first, command, bytes, hexpected, hbytes, hechoed, hlength⟩
    obtain ⟨hiff, htake⟩ := @hsame first bytes hlength
    exact ⟨first, command, bytes, hexpected, hiff.2 hbytes, htake.symm ▸ hechoed, hlength⟩

theorem echoesAt_of_infix (hverbatim : expected <:+: actual) (hexpected : expected ≠ []) :
    ∃ start stop, EchoesAt actual expected start stop false := by
  obtain ⟨before, behind, rfl⟩ := hverbatim
  cases expected with
  | nil => exact absurd rfl hexpected
  | cons first command =>
      have hplain : ∀ (bytes : Bytes) (column : ℕ), Echoed column bytes bytes false := by
        intro bytes
        induction bytes with
        | nil => exact fun _ => .done
        | cons byte bytes ih => exact fun column => .same (ih _)
      refine ⟨before.length, _, first, command, command, rfl, ?_, hplain _ _, rfl⟩
      rw [List.append_assoc, List.drop_left]
      exact List.prefix_append _ _

/-! ## The first echo -/

/-- The first match in a stream which comes in chunks, where all of it is looked at again
with each chunk. -/
def firstEcho (expected : Bytes) : Bytes → List Bytes → Option EchoMatch
  | received, [] => findEchoEnd received expected
  | received, chunk :: chunks =>
      (findEchoEnd received expected).or (firstEcho expected (received ++ chunk) chunks)

/-- The echo in the longer stream is the same one; its line end may have come with the
further bytes. -/
def EndsWith (actual more : Bytes) (found found' : EchoMatch) : Prop :=
  found'.ambiguousPlainCrlfWrap = found.ambiguousPlainCrlfWrap ∧
    (found'.stop = found.stop ∨
      ∃ lineEnd, (lineEnd = [lf] ∨ lineEnd = crLf) ∧
        lineEnd <+: (actual ++ more).drop found.stop ∧
        found'.stop = found.stop + lineEnd.length ∧ actual.length < found'.stop)

theorem findSome?_range_eq_none {β : Type*} {f : ℕ → Option β} {n : ℕ} :
    (List.range n).findSome? f = none ↔ ∀ earlier < n, f earlier = none := by
  rw [List.findSome?_eq_none_iff]
  exact forall_congr' fun earlier => imp_congr_left List.mem_range

theorem findSome?_range_eq_some {β : Type*} {f : ℕ → Option β} {n : ℕ} {found : β} :
    (List.range n).findSome? f = some found ↔
      ∃ start < n, f start = some found ∧ ∀ earlier < start, f earlier = none := by
  induction n with
  | zero => simp
  | succ n ih =>
      rw [List.range_succ, List.findSome?_append, Option.or_eq_some_iff, ih,
        findSome?_range_eq_none]
      constructor
      · rintro (⟨start, hstart, hfound⟩ | ⟨hnone, hlast⟩)
        · exact ⟨start, Nat.lt_succ_of_lt hstart, hfound⟩
        · exact ⟨n, Nat.lt_succ_self n, by simpa using hlast, hnone⟩
      · rintro ⟨start, hstart, hfound, hnone⟩
        rcases Nat.lt_succ_iff_lt_or_eq.1 hstart with hbefore | rfl
        · exact .inl ⟨start, hbefore, hfound, hnone⟩
        · exact .inr ⟨hnone, by simpa using hfound⟩

theorem echoAt_eq_none_iff (first : UInt8) :
    echoAt actual (first :: command) start = none ↔
      ∀ stop ambiguous, ¬EchoesAt actual (first :: command) start stop ambiguous := by
  rw [Option.eq_none_iff_forall_ne_some]
  constructor
  · intro hnone stop ambiguous hechoes
    exact hnone ⟨_, ambiguous⟩ ((echoAt_iff first _).2 ⟨stop, hechoes, rfl⟩)
  · rintro hnone found hfound
    obtain ⟨stop, hechoes, -⟩ := (echoAt_iff first found).1 hfound
    exact hnone stop _ hechoes

theorem findEchoEnd_cons (actual command : Bytes) (first : UInt8) :
    findEchoEnd actual (first :: command) =
      (List.range actual.length).findSome? (echoAt actual (first :: command)) :=
  rfl

/-- The match is the echo which starts first. -/
theorem findEchoEnd_iff (first : UInt8) (found : EchoMatch) :
    findEchoEnd actual (first :: command) = some found ↔
      ∃ start, IsEcho actual (first :: command) start found ∧
        ∀ earlier < start, ∀ stop ambiguous,
          ¬EchoesAt actual (first :: command) earlier stop ambiguous := by
  rw [findEchoEnd_cons, findSome?_range_eq_some]
  constructor
  · rintro ⟨start, -, hstart, hnone⟩
    exact ⟨start, (echoAt_iff first found).1 hstart, fun earlier hearlier =>
      (echoAt_eq_none_iff first).1 (hnone earlier hearlier)⟩
  · rintro ⟨start, ⟨stop, hechoes, hstop⟩, hnone⟩
    have hinside := hechoes.stop_le_length
    exact ⟨start, by omega, (echoAt_iff first found).2 ⟨stop, hechoes, hstop⟩,
      fun earlier hearlier => (echoAt_eq_none_iff first).2 (hnone earlier hearlier)⟩

theorem exists_findEchoEnd_iff (first : UInt8) :
    (∃ found, findEchoEnd actual (first :: command) = some found) ↔
      ∃ start stop ambiguous, EchoesAt actual (first :: command) start stop ambiguous := by
  constructor
  · rintro ⟨found, hfound⟩
    obtain ⟨start, ⟨stop, hechoes, -⟩, -⟩ := (findEchoEnd_iff first found).1 hfound
    exact ⟨start, stop, _, hechoes⟩
  · rintro ⟨start, stop, ambiguous, hechoes⟩
    rw [← Option.isSome_iff_exists, ← Option.ne_none_iff_isSome]
    intro hall
    rw [findEchoEnd_cons, findSome?_range_eq_none] at hall
    have hinside := hechoes.stop_le_length
    exact (echoAt_eq_none_iff first).1 (hall start (by omega)) stop ambiguous hechoes

theorem trailingLineEnd_cases (expected behind : Bytes) :
    trailingLineEnd expected behind = [] ∨
      (trailingLineEnd expected behind = [lf] ∨ trailingLineEnd expected behind = crLf) ∧
        trailingLineEnd expected behind <+: behind := by
  unfold trailingLineEnd
  split_ifs with _ hlong hshort
  · exact .inr ⟨.inr rfl, List.isPrefixOf_iff_prefix.1 hlong⟩
  · exact .inr ⟨.inl rfl, List.isPrefixOf_iff_prefix.1 hshort⟩
  · exact .inl rfl
  · exact .inl rfl

/-- The line end behind an echo, when more bytes come. -/
theorem trailingLineEnd_append (expected behind more : Bytes) :
    trailingLineEnd expected (behind ++ more) = trailingLineEnd expected behind ∨
      trailingLineEnd expected behind = [] ∧
        behind.length < (trailingLineEnd expected (behind ++ more)).length := by
  have hne : lf ≠ cr := by decide
  unfold trailingLineEnd
  by_cases hcr : expected.getLast? = some cr
  · simp only [if_pos hcr]
    cases behind with
    | nil =>
        by_cases hlong : crLf.isPrefixOf more = true
        · exact .inr ⟨rfl, by rw [List.nil_append, if_pos hlong]; decide⟩
        · by_cases hshort : [lf].isPrefixOf more = true
          · exact .inr ⟨rfl, by rw [List.nil_append, if_neg hlong, if_pos hshort]; decide⟩
          · exact .inl (by rw [List.nil_append, if_neg hlong, if_neg hshort]; rfl)
    | cons byte behind =>
        cases behind with
        | nil =>
            by_cases hlong : crLf.isPrefixOf (byte :: more) = true
            · obtain ⟨rest, hrest⟩ := isPrefixOf_crLf.1 hlong
              obtain ⟨rfl, -⟩ := List.cons.inj hrest
              exact .inr ⟨by decide, by rw [List.singleton_append, if_pos hlong]; decide⟩
            · left
              rw [List.singleton_append, if_neg hlong]
              simp [crLf, List.isPrefixOf]
        | cons second behind =>
            left
            simp [crLf, List.isPrefixOf]
  · left
    rw [if_neg hcr, if_neg hcr]

/-- More bytes do not change where the echo is. -/
theorem findEchoEnd_append (first : UInt8) {found : EchoMatch}
    (h : findEchoEnd actual (first :: command) = some found) (more : Bytes) :
    ∃ found', findEchoEnd (actual ++ more) (first :: command) = some found' ∧
      EndsWith actual more found found' := by
  obtain ⟨start, ⟨stop, hechoes, hstop⟩, hfirst⟩ := (findEchoEnd_iff first found).1 h
  have hinside := hechoes.stop_le_length.2
  have hechoes' := (@echoesAt_append_iff _ _ _ _ more _ hinside).2 hechoes
  have hbehind : (actual ++ more).drop stop = actual.drop stop ++ more :=
    List.drop_append_of_le_length hinside
  refine ⟨⟨stop + (trailingLineEnd (first :: command) ((actual ++ more).drop stop)).length,
    found.ambiguousPlainCrlfWrap⟩, ?_, rfl, ?_⟩
  · rw [findEchoEnd_iff]
    refine ⟨start, ⟨stop, hechoes', rfl⟩, fun earlier hearlier stop' ambiguous hother => ?_⟩
    -- an echo which starts earlier would have ended within the bytes which were there
    have hbefore := hechoes'.stop_le hother hearlier.le
    exact hfirst earlier hearlier stop' ambiguous
      ((echoesAt_append_iff (hbefore.trans hinside)).1 hother)
  · dsimp only
    rw [hbehind, hstop]
    rcases trailingLineEnd_append (first :: command) (actual.drop stop) more with
      hsame | ⟨hnone, hlonger⟩
    · exact .inl (by rw [hsame])
    · right
      rw [hnone, List.length_nil, Nat.add_zero, hbehind]
      rcases trailingLineEnd_cases (first :: command) (actual.drop stop ++ more) with
        hnil | ⟨hend, hprefix⟩
      · rw [hnil] at hlonger
        exact absurd hlonger (Nat.not_lt_zero _)
      · rw [List.length_drop] at hlonger
        exact ⟨_, hend, hprefix, rfl, by omega⟩

/-- Whether the bytes come at once or in chunks. -/
theorem firstEcho_spec (first : UInt8) (chunks : List Bytes) (received : Bytes) :
    match firstEcho (first :: command) received chunks with
    | none => findEchoEnd (received ++ chunks.flatten) (first :: command) = none
    | some found => ∃ actual more, actual ++ more = received ++ chunks.flatten ∧
        ∃ found', findEchoEnd (received ++ chunks.flatten) (first :: command) = some found' ∧
          EndsWith actual more found found' := by
  induction chunks generalizing received with
  | nil =>
      unfold firstEcho
      rw [List.flatten_nil, List.append_nil]
      cases hfound : findEchoEnd received (first :: command) with
      | none => rfl
      | some found => exact ⟨received, [], List.append_nil _, found, rfl, rfl, .inl rfl⟩
  | cons chunk chunks ih =>
      unfold firstEcho
      cases hfound : findEchoEnd received (first :: command) with
      | none =>
          rw [Option.none_or, List.flatten_cons, ← List.append_assoc]
          exact ih (received ++ chunk)
      | some found =>
          exact ⟨received, (chunk :: chunks).flatten, rfl, findEchoEnd_append first hfound _⟩

end

/-- Where the echo of a command is found: at the first place where the bytes are one, also
when they come in chunks, up to the line end behind it. -/
theorem echo_is_located (first : UInt8) (command actual : Bytes) :
    (∀ found, findEchoEnd actual (first :: command) = some found ↔
      ∃ start, IsEcho actual (first :: command) start found ∧
        ∀ earlier < start, ∀ stop ambiguous,
          ¬EchoesAt actual (first :: command) earlier stop ambiguous) ∧
    (first :: command <:+: actual →
      ∃ found, findEchoEnd actual (first :: command) = some found) ∧
    (∀ found more, findEchoEnd actual (first :: command) = some found →
      ∃ found', findEchoEnd (actual ++ more) (first :: command) = some found' ∧
        EndsWith actual more found found') ∧
    (∀ chunks : List Bytes, chunks.flatten = actual →
      match firstEcho (first :: command) [] chunks with
      | none => findEchoEnd actual (first :: command) = none
      | some found => ∃ received more, received ++ more = actual ∧
          ∃ found', findEchoEnd actual (first :: command) = some found' ∧
            EndsWith received more found found') := by
  refine ⟨findEchoEnd_iff first, fun hverbatim => ?_, fun found more hfound => ?_, ?_⟩
  · obtain ⟨start, stop, hechoes⟩ := echoesAt_of_infix hverbatim (List.cons_ne_nil _ _)
    exact (exists_findEchoEnd_iff first).2 ⟨start, stop, false, hechoes⟩
  · exact findEchoEnd_append first hfound more
  · rintro chunks rfl
    have hspec := @firstEcho_spec command first chunks []
    rwa [List.nil_append] at hspec

/-- A `\r` which was there before the line end was complete belongs to the line end once
the `\n` has come; and a wrap in front of a line end of the command is none. -/
theorem echo_end_takes_earlier_byte :
    (¬∀ (expected actual more : Bytes) (found : EchoMatch), expected ≠ [] →
      findEchoEnd actual expected = some found →
      ∃ found', findEchoEnd (actual ++ more) expected = some found' ∧
        (found'.stop = found.stop ∨
          actual.length ≤ found.stop ∧
            ∀ byte ∈ ((actual ++ more).take found'.stop).drop found.stop,
              byte = cr ∨ byte = lf)) ∧
    findEchoEnd ([97] ++ crCrLf ++ [13, 98] ++ [97, 13, 98]) [97, 13, 98] =
      some ⟨9, false⟩ := by
  constructor
  · intro hclaim
    obtain ⟨found', hfound', hstop⟩ := hclaim [120, 13] [120, 13, 13] [10] ⟨2, false⟩
      (by decide) (by decide)
    have hmoved : findEchoEnd ([120, 13, 13] ++ [10]) [120, 13] = some ⟨4, false⟩ := by decide
    rw [hmoved] at hfound'
    cases hfound'
    revert hstop
    decide
  · decide

end SerialPlatform.Capture
