import SerialPlatform.JournalQuery
import SerialPlatform.SeparatedLines

/-!
# Lines of the gap ledger

Recovery and queries read the ledger in pieces of bounded length.  Both can be told from
its lines: recovery keeps the lines up to its last record, a query gives the gap of each
line as long as none is too long.
-/

namespace SerialPlatform.Journal

open SeparatedLines

/-- A complete line which recovery takes for a record. -/
def isRecord (codec : Codec) (line : Bytes) : Bool :=
  line.getLast? = some newline && line.length ≤ maxGapLedgerLineBytes &&
    validGapLine codec line.dropLast

/-- The gap which a query finds in a line. -/
def lineGap (codec : Codec) (line : Bytes) : Option StoredGap :=
  let text := if line.getLast? = some newline then line.dropLast else line
  if text = [] then none else codec.gapFromSlice text

/-- The lines of a ledger up to its last record. -/
def keptLines (codec : Codec) (ledger : Bytes) : List Bytes :=
  (lines newline ledger).rdropWhile fun line => !isRecord codec line

section

variable {codec : Codec} {bytes text rest line : Bytes} {offset validEnd : ℕ}

/-! ## Pieces -/

theorem ledgerPiecesFrom_eq {fuel : ℕ} (hfuel : bytes.length ≤ fuel) :
    ledgerPiecesFrom fuel bytes = ledgerPieces bytes := by
  unfold ledgerPieces
  induction fuel using Nat.strong_induction_on generalizing bytes with
  | _ fuel ih =>
      cases fuel with
      | zero =>
          rw [List.length_eq_zero_iff.mp (Nat.le_zero.mp hfuel)]
          rfl
      | succ fuel =>
          cases hlength : bytes.length with
          | zero =>
              rw [List.length_eq_zero_iff.mp hlength]
              rfl
          | succ length =>
              unfold ledgerPiecesFrom
              cases hpiece : ledgerPiece bytes with
              | nil => rfl
              | cons x piece =>
                  have hrest : (bytes.drop (x :: piece).length).length ≤ length := by
                    rw [List.length_drop, List.length_cons, hlength]
                    omega
                  dsimp only
                  rw [ih fuel (Nat.lt_succ_self fuel) (by omega),
                    ih length (by omega) hrest]

theorem ledgerPieces_cons (hpiece : ledgerPiece bytes ≠ []) :
    ledgerPieces bytes =
      ledgerPiece bytes :: ledgerPieces (bytes.drop (ledgerPiece bytes).length) := by
  cases hbytes : bytes with
  | nil => exact absurd (by rw [hbytes]; rfl) hpiece
  | cons x rest =>
      rw [hbytes] at hpiece
      have hpieces : ledgerPieces (x :: rest) = ledgerPiecesFrom (rest.length + 1) (x :: rest) := rfl
      rw [hpieces]
      unfold ledgerPiecesFrom
      cases hp : ledgerPiece (x :: rest) with
      | nil => exact absurd hp hpiece
      | cons y piece =>
          dsimp only
          rw [ledgerPiecesFrom_eq]
          rw [List.length_drop, List.length_cons, List.length_cons]
          omega

theorem ledgerPiece_of_notMem (hnewline : newline ∉ text) :
    ledgerPiece text = text.take (maxGapLedgerLineBytes + 1) := by
  have hline : (text.take (maxGapLedgerLineBytes + 1)).takeWhile (· ≠ newline) =
      text.take (maxGapLedgerLineBytes + 1) :=
    List.takeWhile_eq_self_iff.mpr fun x hx =>
      decide_eq_true fun h => hnewline (h ▸ List.mem_of_mem_take hx)
  unfold ledgerPiece
  dsimp only
  rw [hline, if_neg (lt_irrefl _)]

/-- A piece is a line, as far as the bound allows. -/
theorem ledgerPiece_append (hnewline : newline ∉ text) :
    ledgerPiece (text ++ newline :: rest) = (text ++ [newline]).take (maxGapLedgerLineBytes + 1) := by
  by_cases hlength : text.length ≤ maxGapLedgerLineBytes
  · have hwindow : (text ++ newline :: rest).take (maxGapLedgerLineBytes + 1) =
        text ++ newline :: rest.take (maxGapLedgerLineBytes - text.length) := by
      rw [List.take_append, List.take_of_length_le (by omega),
        show maxGapLedgerLineBytes + 1 - text.length = (maxGapLedgerLineBytes - text.length) + 1
          by omega, List.take_succ_cons]
    have hline : (text ++ newline :: rest.take (maxGapLedgerLineBytes - text.length)).takeWhile
        (· ≠ newline) = text := by
      rw [List.takeWhile_append_of_pos, List.takeWhile_cons_of_neg (by simp), List.append_nil]
      exact fun x hx => decide_eq_true fun h => hnewline (h ▸ hx)
    unfold ledgerPiece
    dsimp only
    rw [hwindow, hline, if_pos, List.take_of_length_le]
    · rw [List.length_append, List.length_singleton]
      omega
    · rw [List.length_append, List.length_cons]
      omega
  · have hwindow : (text ++ newline :: rest).take (maxGapLedgerLineBytes + 1) =
        text.take (maxGapLedgerLineBytes + 1) := List.take_append_of_le_length (by omega)
    have hsame : ledgerPiece (text ++ newline :: rest) = ledgerPiece text := by
      unfold ledgerPiece
      rw [hwindow]
    rw [hsame, ledgerPiece_of_notMem hnewline, List.take_append_of_le_length (by omega)]

theorem ledgerPieces_append (hnewline : newline ∉ text)
    (hlength : text.length ≤ maxGapLedgerLineBytes) :
    ledgerPieces (text ++ newline :: rest) = (text ++ [newline]) :: ledgerPieces rest := by
  have hpiece : ledgerPiece (text ++ newline :: rest) = text ++ [newline] := by
    rw [ledgerPiece_append hnewline, List.take_of_length_le]
    rw [List.length_append, List.length_singleton]
    omega
  rw [ledgerPieces_cons (by rw [hpiece]; simp), hpiece]
  have hsplit : text ++ newline :: rest = (text ++ [newline]) ++ rest := by
    rw [List.append_assoc, List.singleton_append]
  rw [hsplit, List.drop_left]

/-- A line which is too long is met in pieces. -/
theorem ledgerPieces_append_long (hnewline : newline ∉ text)
    (hlength : maxGapLedgerLineBytes < text.length) :
    ledgerPieces (text ++ newline :: rest) =
      text.take (maxGapLedgerLineBytes + 1) ::
        ledgerPieces (text.drop (maxGapLedgerLineBytes + 1) ++ newline :: rest) := by
  have hpiece : ledgerPiece (text ++ newline :: rest) = text.take (maxGapLedgerLineBytes + 1) := by
    rw [ledgerPiece_append hnewline, List.take_append_of_le_length (by omega)]
  have htaken : (text.take (maxGapLedgerLineBytes + 1)).length = maxGapLedgerLineBytes + 1 :=
    List.length_take_of_le (by omega)
  have hne : ledgerPiece (text ++ newline :: rest) ≠ [] := by
    rw [hpiece]
    intro h
    rw [h, List.length_nil] at htaken
    omega
  rw [ledgerPieces_cons hne, hpiece, htaken, List.drop_append_of_le_length (by omega)]

theorem ledgerPieces_of_notMem (hnewline : newline ∉ text) (htext : text ≠ []) :
    ledgerPieces text =
      text.take (maxGapLedgerLineBytes + 1) ::
        ledgerPieces (text.drop (maxGapLedgerLineBytes + 1)) := by
  have hne : ledgerPiece text ≠ [] := by
    rw [ledgerPiece_of_notMem hnewline, ne_eq, List.take_eq_nil_iff]
    rintro (h | h)
    · omega
    · exact htext h
  rw [ledgerPieces_cons hne, ledgerPiece_of_notMem hnewline, List.length_take]
  rcases le_total text.length (maxGapLedgerLineBytes + 1) with hle | hle
  · rw [min_eq_right hle, List.drop_length, List.drop_of_length_le hle]
  · rw [min_eq_left hle]

theorem getLast?_ne_of_notMem (hnewline : newline ∉ text) : text.getLast? ≠ some newline :=
  fun h => hnewline (List.mem_of_getLast? h)

/-! ## Recovery -/

/-- Inside of a line which is too long everything is skipped through its newline. -/
theorem lastValidEnd_discarding (hnewline : newline ∉ text) :
    lastValidEnd codec (ledgerPieces (text ++ newline :: rest)) offset validEnd true =
      lastValidEnd codec (ledgerPieces rest) (offset + (text.length + 1)) validEnd false := by
  induction hlength : text.length using Nat.strong_induction_on generalizing text offset with
  | _ length ih =>
      by_cases hshort : text.length ≤ maxGapLedgerLineBytes
      · rw [ledgerPieces_append hnewline hshort, lastValidEnd, if_pos (Or.inl rfl),
          List.getLast?_concat, decide_eq_true rfl, List.length_append, List.length_singleton,
          hlength]
        rfl
      · have hskipped : newline ∉ text.take (maxGapLedgerLineBytes + 1) :=
          fun h => hnewline (List.mem_of_mem_take h)
        have hrest : (text.drop (maxGapLedgerLineBytes + 1)).length =
            length - (maxGapLedgerLineBytes + 1) := by
          rw [List.length_drop, hlength]
        have hsum : maxGapLedgerLineBytes + 1 + (length - (maxGapLedgerLineBytes + 1) + 1) =
            length + 1 := by omega
        rw [ledgerPieces_append_long hnewline (by omega), lastValidEnd, if_pos (Or.inl rfl),
          decide_eq_false (getLast?_ne_of_notMem hskipped), Bool.not_false,
          ih _ (by omega) (fun h => hnewline (List.mem_of_mem_drop h)) hrest,
          List.length_take_of_le (by omega), Nat.add_assoc, hsum]

theorem lastValidEnd_discarding_torn (hnewline : newline ∉ text) :
    lastValidEnd codec (ledgerPieces text) offset validEnd true = validEnd := by
  induction hlength : text.length using Nat.strong_induction_on generalizing text offset with
  | _ length ih =>
      rcases eq_or_ne text [] with rfl | htext
      · rfl
      · have hpositive : 0 < text.length := List.length_pos_iff.mpr htext
        have hskipped : newline ∉ text.take (maxGapLedgerLineBytes + 1) :=
          fun h => hnewline (List.mem_of_mem_take h)
        rw [ledgerPieces_of_notMem hnewline htext, lastValidEnd, if_pos (Or.inl rfl),
          decide_eq_false (getLast?_ne_of_notMem hskipped), Bool.not_false,
          ih _ _ (fun h => hnewline (List.mem_of_mem_drop h)) rfl]
        rw [List.length_drop]
        omega

theorem lastValidEnd_of_long {piece : Bytes} {pieces : List Bytes}
    (hlong : maxGapLedgerLineBytes < piece.length) (discarding : Bool) :
    lastValidEnd codec (piece :: pieces) offset validEnd discarding =
      lastValidEnd codec (piece :: pieces) offset validEnd true := by
  rw [lastValidEnd, if_pos (Or.inr hlong), lastValidEnd, if_pos (Or.inl rfl)]

theorem lastValidEnd_line (hnewline : newline ∉ text) :
    lastValidEnd codec (ledgerPieces (text ++ newline :: rest)) offset validEnd false =
      lastValidEnd codec (ledgerPieces rest) (offset + (text.length + 1))
        (if isRecord codec (text ++ [newline]) then offset + (text.length + 1) else validEnd)
        false := by
  have hlast : (text ++ [newline]).getLast? = some newline := List.getLast?_concat
  have hlength : (text ++ [newline]).length = text.length + 1 := by
    rw [List.length_append, List.length_singleton]
  by_cases hlong : maxGapLedgerLineBytes < (text ++ [newline]).length
  · have hnot : isRecord codec (text ++ [newline]) = false := by
      rw [isRecord, decide_eq_false (not_le.mpr hlong), Bool.and_false, Bool.false_and]
    rw [hnot, if_neg Bool.false_ne_true]
    by_cases hshort : text.length ≤ maxGapLedgerLineBytes
    · rw [ledgerPieces_append hnewline hshort, lastValidEnd, if_pos (Or.inr hlong), hlast, hlength,
        decide_eq_true rfl]
      rfl
    · have hpieces : ledgerPieces (text ++ newline :: rest) = _ :=
        ledgerPieces_append_long hnewline (by omega)
      rw [hpieces, lastValidEnd_of_long
        (by rw [List.length_take_of_le (by omega)]; exact Nat.lt_succ_self _), ← hpieces,
        lastValidEnd_discarding hnewline]
  · rw [ledgerPieces_append hnewline (by omega), lastValidEnd,
      if_neg (by rintro (h | h); exacts [Bool.false_ne_true h, hlong h]),
      if_neg (not_not.mpr hlast), isRecord, hlast,
      decide_eq_true rfl, decide_eq_true (not_lt.mp hlong), hlength, Bool.true_and, Bool.true_and]
    split <;> rfl

theorem lastValidEnd_torn (hnewline : newline ∉ text) :
    lastValidEnd codec (ledgerPieces text) offset validEnd false = validEnd := by
  rcases eq_or_ne text [] with rfl | htext
  · rfl
  · have hpieces := ledgerPieces_of_notMem hnewline htext
    by_cases hlong : maxGapLedgerLineBytes < text.length
    · rw [hpieces, lastValidEnd_of_long
        (by rw [List.length_take_of_le (by omega)]; exact Nat.lt_succ_self _), ← hpieces,
        lastValidEnd_discarding_torn hnewline]
    · rw [hpieces, List.take_of_length_le (by omega), lastValidEnd,
        if_neg (by rintro (h | h); exacts [Bool.false_ne_true h, hlong h]),
        if_pos (getLast?_ne_of_notMem hnewline)]

theorem keptLines_append (hnewline : newline ∉ text) :
    keptLines codec (text ++ newline :: rest) =
      if keptLines codec rest = [] then
        if isRecord codec (text ++ [newline]) then [text ++ [newline]] else []
      else (text ++ [newline]) :: keptLines codec rest := by
  rw [keptLines, lines_append hnewline, rdropWhile_cons]
  cases isRecord codec (text ++ [newline]) <;> rfl

theorem keptLines_of_notMem (hnewline : newline ∉ text) : keptLines codec text = [] := by
  rcases eq_or_ne text [] with rfl | htext
  · rfl
  · rw [keptLines, lines_of_notMem hnewline htext, List.rdropWhile_singleton, isRecord,
      decide_eq_false (getLast?_ne_of_notMem hnewline)]
    rfl

theorem lastValidEnd_ledgerPieces (ledger : Bytes) :
    lastValidEnd codec (ledgerPieces ledger) offset validEnd false =
      if keptLines codec ledger = [] then validEnd
      else offset + (keptLines codec ledger).flatten.length := by
  induction ledger using lines_induction newline generalizing offset validEnd with
  | torn text hnewline =>
      rw [lastValidEnd_torn hnewline, keptLines_of_notMem hnewline, if_pos rfl]
  | line text rest hnewline ih =>
      rw [lastValidEnd_line hnewline, ih, keptLines_append hnewline]
      by_cases hkept : keptLines codec rest = []
      · rw [if_pos hkept, if_pos hkept]
        cases isRecord codec (text ++ [newline]) with
        | true => simp
        | false => rfl
      · rw [if_neg hkept, if_neg hkept, if_neg (List.cons_ne_nil _ _), List.flatten_cons,
          List.length_append, List.length_append, List.length_singleton, Nat.add_assoc]

theorem keptLines_isPrefix (ledger : Bytes) : keptLines codec ledger <+: lines newline ledger :=
  List.rdropWhile_prefix _ _

theorem recoveredLedger_eq (ledger : Bytes) :
    recoveredLedger codec ledger = (keptLines codec ledger).flatten := by
  obtain ⟨dropped, hdropped⟩ : keptLines codec ledger <+: lines newline ledger :=
    keptLines_isPrefix ledger
  have hend : lastValidEnd codec (ledgerPieces ledger) 0 0 false =
      (keptLines codec ledger).flatten.length := by
    rw [lastValidEnd_ledgerPieces]
    split
    case isTrue hnil =>
      rw [hnil]
      rfl
    case isFalse => rw [Nat.zero_add]
  calc
    recoveredLedger codec ledger
      = ((lines newline ledger).flatten).take (keptLines codec ledger).flatten.length := by
        rw [recoveredLedger, hend, flatten_lines]
    _ = (keptLines codec ledger).flatten := by
        rw [← hdropped, List.flatten_append, List.take_left]

theorem lines_recoveredLedger (ledger : Bytes) :
    lines newline (recoveredLedger codec ledger) = keptLines codec ledger := by
  rw [recoveredLedger_eq, lines_flatten_of_isPrefix (keptLines_isPrefix ledger)]

theorem recoveredLedger_isPrefix (ledger : Bytes) : recoveredLedger codec ledger <+: ledger :=
  List.take_prefix _ _

theorem recoveredLedger_idempotent (ledger : Bytes) :
    recoveredLedger codec (recoveredLedger codec ledger) = recoveredLedger codec ledger := by
  rw [recoveredLedger_eq (recoveredLedger codec ledger), keptLines, lines_recoveredLedger,
    keptLines, List.rdropWhile_idempotent, ← keptLines, ← recoveredLedger_eq]

end

end SerialPlatform.Journal
