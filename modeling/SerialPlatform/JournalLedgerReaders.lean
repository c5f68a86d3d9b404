import SerialPlatform.ExceptBind
import SerialPlatform.FallibleState
import SerialPlatform.JournalCodec
import SerialPlatform.JournalLedgerRecords

/-!
# Readers of the gap ledger

The lines which recovery keeps need not be lines which a query can read: recovery passes
over a line which is too long, and over a gap which is not valid, when a record follows.
-/

namespace SerialPlatform.Journal

open FallibleState SeparatedLines StatefulSteps

/-- A budget which lasts for some more bytes. -/
structure QueryBudget.Permits (budget : QueryBudget) (bytes : ℕ) : Prop where
  inTime : ∀ reading, budget.isLate reading = false
  room : budget.scannedBytes + bytes < budget.maxScanBytes

def ledgerBytes (disk : Disk) : Bytes := (disk.lookup gapLedgerPath).getD []

/-- A query visits exactly the given gaps, in order. -/
def VisitsGaps (codec : Codec) (disk : Disk) (gaps : List StoredGap) : Prop :=
  ∀ (σ : Type) (visit : σ → StoredGap → Except JournalError σ) (state : σ) (budget : QueryBudget),
    budget.Permits (ledgerBytes disk).length →
      (visitGapLedger codec disk visit state budget).map Prod.fst = gaps.foldlM visit state

/-- The gaps of the complete valid records. -/
def recordedGaps (codec : Codec) (ledger : Bytes) : List StoredGap :=
  ((lines newline ledger).filter (isRecord codec)).filterMap (lineGap codec)

/-- The text of a gap is one line which reads back. -/
structure Codec.ReadsGap (codec : Codec) (gap : StoredGap) : Prop where
  readsBack : codec.gapFromSlice (codec.gapToVec gap) = some gap
  oneLine : newline ∉ codec.gapToVec gap
  bounded : (codec.gapToVec gap).length < maxGapLedgerLineBytes

/-- What recovery leaves, what a query visits and what an append adds. -/
structure LedgerAgrees (codec : Codec) (ledger : Bytes) : Prop where
  isPrefix : recoveredLedger codec ledger <+: ledger
  records : (lines newline (recoveredLedger codec ledger)).filter (isRecord codec) =
    (lines newline ledger).filter (isRecord codec)
  ends : ∀ line, (lines newline (recoveredLedger codec ledger)).getLast? = some line →
    isRecord codec line
  idempotent : recoveredLedger codec (recoveredLedger codec ledger) = recoveredLedger codec ledger
  visits : ∀ disk : Disk, disk.lookup gapLedgerPath = some (recoveredLedger codec ledger) →
    VisitsGaps codec disk (recordedGaps codec ledger)
  appended : ∀ (machine next : Machine) (gap : StoredGap), codec.ReadsGap gap →
    machine.disk.lookup gapLedgerPath = some (recoveredLedger codec ledger) →
    (recordGap codec gap).run.run machine = (.ok (), next) →
    VisitsGaps codec next.disk (recordedGaps codec ledger ++ [gap])

/-- A line which a query can read and takes for a record only when it is valid. -/
structure Readable (codec : Codec) (line : Bytes) : Prop where
  bounded : line.length ≤ maxGapLedgerLineBytes
  valid : ∀ gap, codec.gapFromSlice line.dropLast = some gap →
    validatePort gap.port = .ok () ∧ gap.firstSeq ≤ gap.lastSeq

section

variable {codec : Codec} {σ : Type} {visit : σ → StoredGap → Except JournalError σ} {state : σ}
  {budget : QueryBudget} {bytes text rest line piece ledger : Bytes} {pieces : List Bytes}
  {m n : ℕ}

/-! ## The budget -/

theorem QueryBudget.Permits.mono (hbudget : budget.Permits n) (hle : m ≤ n) :
    budget.Permits m where
  inTime := hbudget.inTime
  room := lt_of_le_of_lt (Nat.add_le_add_left hle _) hbudget.room

theorem permits_new (bytes : ℕ) : (QueryBudget.new (bytes + 1) fun _ => false).Permits bytes where
  inTime := fun _ => rfl
  room := by
    rw [QueryBudget.new, Nat.zero_add]
    exact Nat.lt_succ_self bytes

theorem ensureAvailable_of_permits (phase : String) (hbudget : budget.Permits n) :
    ∃ next, next.Permits n ∧ ensureAvailable phase budget = .ok ((), next) := by
  refine ⟨{ budget with readings := budget.readings + 1 },
    ⟨hbudget.inTime, hbudget.room⟩, ?_⟩
  have hroom : ¬budget.maxScanBytes ≤ budget.scannedBytes := by
    have := hbudget.room
    omega
  have hexhausted : exhausted budget =
      .ok (false, { budget with readings := budget.readings + 1 }) := by
    rw [exhausted, decide_eq_false hroom, hbudget.inTime, Bool.or_false]
  unfold ensureAvailable
  rw [bind_of_ok hexhausted]
  rfl

theorem charge_of_permits (phase : String) (hbudget : budget.Permits (m + n)) :
    ∃ next, next.Permits n ∧ charge m phase budget = .ok ((), next) := by
  have hbytes : addBytes m budget =
      .ok ((), { budget with scannedBytes := satAdd u64Max budget.scannedBytes m }) := rfl
  unfold charge
  rw [bind_of_ok hbytes]
  refine ensureAvailable_of_permits phase ⟨hbudget.inTime, ?_⟩
  have hroom := hbudget.room
  have hle : satAdd u64Max budget.scannedBytes m ≤ budget.scannedBytes + m := min_le_left _ _
  dsimp only
  omega

/-! ## The reader -/

variable (codec visit) in
theorem visitGapPieces_nil (hbudget : budget.Permits n) :
    (visitGapPieces codec visit [] state budget).map Prod.fst = .ok state := by
  obtain ⟨next, -, hensured⟩ := ensureAvailable_of_permits "gap ledger" hbudget
  unfold visitGapPieces
  rw [bind_of_ok hensured]
  rfl

variable (codec visit state pieces) in
theorem visitGapPieces_cons (hbudget : budget.Permits (piece.length + n)) :
    ∃ next, next.Permits n ∧ visitGapPieces codec visit (piece :: pieces) state budget =
      if maxGapLedgerLineBytes < piece.length then
        .error (.corrupt gapLedgerPath "gap ledger line exceeds size limit")
      else
        ((lineGap codec piece).toList.foldlM visit state).bind fun state =>
          visitGapPieces codec visit pieces state next := by
  obtain ⟨ready, hready, hensured⟩ := ensureAvailable_of_permits "gap ledger" hbudget
  obtain ⟨next, hnext, hcharged⟩ := charge_of_permits "gap ledger" hready
  refine ⟨next, hnext, ?_⟩
  rw [visitGapPieces, bind_of_ok hensured, bind_of_ok hcharged]
  split
  case isTrue => rfl
  case isFalse =>
    rw [lift_bind, lineGap]
    split
    case h_1 gap hgap =>
      rw [hgap, Option.toList_some, List.foldlM_cons]
      cases visit state gap <;> rfl
    case h_2 hgap =>
      rw [hgap]
      rfl

theorem filterMap_lineGap_cons (others : List Bytes) :
    (line :: others).filterMap (lineGap codec) =
      (lineGap codec line).toList ++ others.filterMap (lineGap codec) := by
  rw [List.filterMap_cons]
  cases lineGap codec line <;> rfl

variable (codec visit state pieces) in
theorem visitGapPieces_line (hbounded : line.length ≤ maxGapLedgerLineBytes)
    (hbudget : budget.Permits (line.length + n)) :
    ∃ next, next.Permits n ∧ visitGapPieces codec visit (line :: pieces) state budget =
      (lineGap codec line).toList.foldlM visit state >>= fun state =>
        visitGapPieces codec visit pieces state next := by
  obtain ⟨next, hnext, hvisit⟩ := visitGapPieces_cons codec visit state pieces hbudget
  refine ⟨next, hnext, ?_⟩
  rw [hvisit, if_neg (not_lt.mpr hbounded)]
  rfl

/-- A query visits the gap of each line. -/
theorem visitGapPieces_ledgerPieces (hbudget : budget.Permits bytes.length)
    (hbounded : ∀ line ∈ lines newline bytes, line.length ≤ maxGapLedgerLineBytes) :
    (visitGapPieces codec visit (ledgerPieces bytes) state budget).map Prod.fst =
      ((lines newline bytes).filterMap (lineGap codec)).foldlM visit state := by
  induction bytes using lines_induction newline generalizing state budget with
  | torn text hnewline =>
      rcases eq_or_ne text [] with rfl | htext
      · exact visitGapPieces_nil codec visit hbudget
      · rw [lines_of_notMem hnewline htext] at hbounded ⊢
        have htext' := hbounded text (List.mem_singleton_self text)
        obtain ⟨next, hnext, hvisit⟩ :=
          visitGapPieces_line codec visit state [] (n := 0) htext' hbudget
        have hpieces : ledgerPieces text = [text] := by
          rw [ledgerPieces_of_notMem hnewline htext, List.take_of_length_le (by omega),
            List.drop_of_length_le (by omega)]
          rfl
        rw [hpieces, hvisit, filterMap_lineGap_cons, List.foldlM_append]
        cases (lineGap codec text).toList.foldlM visit state with
        | error e => rfl
        | ok visited => exact visitGapPieces_nil codec visit hnext
  | line text rest hnewline ih =>
      rw [lines_append hnewline] at hbounded ⊢
      have hline := hbounded _ List.mem_cons_self
      have hrest := fun line hline => hbounded line (List.mem_cons_of_mem _ hline)
      have hlength : (text ++ newline :: rest).length = (text ++ [newline]).length + rest.length := by
        rw [← List.length_append, List.append_assoc, List.singleton_append]
      rw [hlength] at hbudget
      obtain ⟨next, hnext, hvisit⟩ :=
        visitGapPieces_line codec visit state (ledgerPieces rest) hline hbudget
      have hshort : text.length ≤ maxGapLedgerLineBytes := by
        rw [List.length_append, List.length_singleton] at hline
        omega
      rw [ledgerPieces_append hnewline hshort, hvisit, filterMap_lineGap_cons, List.foldlM_append]
      cases (lineGap codec (text ++ [newline])).toList.foldlM visit state with
      | error e => rfl
      | ok visited => exact ih hnext hrest

theorem visitGapPieces_of_long (hbudget : budget.Permits piece.length)
    (hlong : maxGapLedgerLineBytes < piece.length) (result : σ × QueryBudget) :
    visitGapPieces codec visit (piece :: pieces) state budget ≠ .ok result := by
  obtain ⟨next, -, hvisit⟩ := visitGapPieces_cons codec visit state pieces (n := 0) hbudget
  rw [hvisit, if_pos hlong]
  exact fun h => by cases h

/-- A line which is too long ends the query. -/
theorem visitGapPieces_ne_ok (hbudget : budget.Permits bytes.length)
    (hlong : ∃ line ∈ lines newline bytes, maxGapLedgerLineBytes < line.length) :
    ∀ result, visitGapPieces codec visit (ledgerPieces bytes) state budget ≠ .ok result := by
  induction bytes using lines_induction newline generalizing state budget with
  | torn text hnewline =>
      rcases eq_or_ne text [] with rfl | htext
      · obtain ⟨line, hline, -⟩ := hlong
        cases hline
      · rw [lines_of_notMem hnewline htext] at hlong
        obtain ⟨line, hline, hlong⟩ := hlong
        rw [List.mem_singleton.mp hline] at hlong
        have htaken : (text.take (maxGapLedgerLineBytes + 1)).length = maxGapLedgerLineBytes + 1 :=
          List.length_take_of_le (by omega)
        rw [ledgerPieces_of_notMem hnewline htext]
        exact visitGapPieces_of_long (hbudget.mono (by omega)) (by omega)
  | line text rest hnewline ih =>
      rw [lines_append hnewline] at hlong
      have hlength : (text ++ newline :: rest).length = text.length + 1 + rest.length := by
        rw [List.length_append, List.length_cons]
        omega
      have hline : (text ++ [newline]).length = text.length + 1 := by
        rw [List.length_append, List.length_singleton]
      rw [hlength] at hbudget
      by_cases hshort : text.length ≤ maxGapLedgerLineBytes
      · rw [ledgerPieces_append hnewline hshort]
        rw [← hline] at hbudget
        obtain ⟨next, hnext, hvisit⟩ :=
          visitGapPieces_cons codec visit state (ledgerPieces rest) hbudget
        rw [hvisit]
        split
        case isTrue => exact fun result h => by cases h
        case isFalse hbounded =>
          have hrest : ∃ line ∈ lines newline rest, maxGapLedgerLineBytes < line.length := by
            obtain ⟨line, hmem, hlong⟩ := hlong
            rcases List.mem_cons.mp hmem with rfl | hmem
            · exact absurd hlong hbounded
            · exact ⟨line, hmem, hlong⟩
          cases (lineGap codec (text ++ [newline])).toList.foldlM visit state with
          | error e => exact fun result h => by cases h
          | ok visited => exact ih hnext hrest
      · have htaken : (text.take (maxGapLedgerLineBytes + 1)).length = maxGapLedgerLineBytes + 1 :=
          List.length_take_of_le (by omega)
        rw [ledgerPieces_append_long hnewline (by omega)]
        exact visitGapPieces_of_long (hbudget.mono (by omega)) (by omega)

/-! ## The lines which recovery keeps -/

theorem getLast?_of_mem_keptLines (hline : line ∈ keptLines codec ledger) :
    line.getLast? = some newline := by
  induction ledger using lines_induction newline with
  | torn text hnewline =>
      rw [keptLines_of_notMem hnewline] at hline
      cases hline
  | line text rest hnewline ih =>
      rw [keptLines_append hnewline] at hline
      split at hline
      · split at hline
        · rw [List.mem_singleton.mp hline]
          exact List.getLast?_concat
        · cases hline
      · rcases List.mem_cons.mp hline with rfl | hline
        · exact List.getLast?_concat
        · exact ih hline

theorem getLast?_recoveredLedger (ledger : Bytes) :
    (recoveredLedger codec ledger).getLast?.all (· = newline) := by
  rcases List.eq_nil_or_concat' (keptLines codec ledger) with hnil | ⟨others, line, hlines⟩
  · rw [recoveredLedger_eq, hnil]
    rfl
  · have hmem : line ∈ keptLines codec ledger := by
      rw [hlines]
      exact List.mem_append_right others (List.mem_singleton_self line)
    have hlast := getLast?_of_mem_keptLines hmem
    rw [recoveredLedger_eq, hlines, List.flatten_append, List.flatten_singleton,
      List.getLast?_append, hlast]
    exact decide_eq_true (Eq.refl newline)

theorem isRecord_getLast (hlast : (keptLines codec ledger).getLast? = some line) :
    isRecord codec line := by
  have hne : keptLines codec ledger ≠ [] := by
    intro hnil
    rw [hnil] at hlast
    cases hlast
  have hkept := List.rdropWhile_last_not (fun line => !isRecord codec line) (lines newline ledger) hne
  rw [List.getLast?_eq_some_getLast hne] at hlast
  rw [← Option.some.inj hlast]
  rw [Bool.not_eq_true, Bool.not_eq_false'] at hkept
  exact hkept

theorem filter_keptLines (ledger : Bytes) :
    (keptLines codec ledger).filter (isRecord codec) =
      (lines newline ledger).filter (isRecord codec) := by
  have hfilter := filter_rdropWhile (p := fun line => !isRecord codec line) (lines newline ledger)
  simp only [Bool.not_not] at hfilter
  exact hfilter

theorem validGapLine_iff {text : Bytes} :
    validGapLine codec text ↔
      ∃ gap, codec.gapFromSlice text = some gap ∧
        validatePort gap.port = .ok () ∧ gap.firstSeq ≤ gap.lastSeq := by
  unfold validGapLine
  cases codec.gapFromSlice text with
  | none => simp
  | some gap => simp

theorem isRecord_iff (hlast : line.getLast? = some newline) :
    isRecord codec line ↔ line.length ≤ maxGapLedgerLineBytes ∧
      ∃ gap, codec.gapFromSlice line.dropLast = some gap ∧
        validatePort gap.port = .ok () ∧ gap.firstSeq ≤ gap.lastSeq := by
  rw [isRecord, hlast, Bool.and_eq_true, Bool.and_eq_true, decide_eq_true_eq, decide_eq_true_eq,
    validGapLine_iff]
  exact ⟨fun h => ⟨h.1.2, h.2⟩, fun h => ⟨⟨rfl, h.1⟩, h.2⟩⟩

theorem Readable.of_isRecord (hrecord : isRecord codec line) : Readable codec line := by
  have hlast : line.getLast? = some newline := by
    rw [isRecord, Bool.and_eq_true, Bool.and_eq_true, decide_eq_true_eq] at hrecord
    exact hrecord.1.1
  obtain ⟨hbounded, gap, hgap, hvalid⟩ := (isRecord_iff hlast).mp hrecord
  refine ⟨hbounded, fun other hother => ?_⟩
  rw [hgap] at hother
  rwa [← Option.some.inj hother]

theorem lineGap_complete (hempty : codec.gapFromSlice [] = none)
    (hlast : line.getLast? = some newline) :
    lineGap codec line = codec.gapFromSlice line.dropLast := by
  rw [lineGap, if_pos hlast]
  split
  case isTrue hnil => rw [hnil, hempty]
  case isFalse => rfl

theorem recordedGaps_eq (ledger : Bytes) :
    recordedGaps codec ledger =
      (keptLines codec ledger).filterMap fun line =>
        if isRecord codec line then lineGap codec line else none := by
  rw [recordedGaps, ← filter_keptLines, List.filterMap_filter]

/-- A readable line gives a query what recovery takes for a record, and nothing else. -/
theorem Readable.lineGap_eq (hempty : codec.gapFromSlice [] = none)
    (hlast : line.getLast? = some newline) (hreadable : Readable codec line) :
    lineGap codec line = if isRecord codec line then lineGap codec line else none := by
  split
  case isTrue => rfl
  case isFalse hnot =>
    rw [lineGap_complete hempty hlast]
    cases hgap : codec.gapFromSlice line.dropLast with
    | none => rfl
    | some gap =>
        exact absurd ((isRecord_iff hlast).mpr
          ⟨hreadable.bounded, gap, hgap, hreadable.valid gap hgap⟩) hnot

/-! ## Agreement -/

theorem visitsGaps_of_bounded {disk : Disk} (hdisk : disk.lookup gapLedgerPath = some bytes)
    (hbounded : ∀ line ∈ lines newline bytes, line.length ≤ maxGapLedgerLineBytes) :
    VisitsGaps codec disk ((lines newline bytes).filterMap (lineGap codec)) := by
  intro σ visit state budget hbudget
  rw [ledgerBytes, hdisk, Option.getD_some] at hbudget
  rw [visitGapLedger, hdisk]
  exact visitGapPieces_ledgerPieces hbudget hbounded

/-- A successful append leaves what recovery keeps and the new line. -/
theorem recordGap_appends {machine next : Machine} {gap : StoredGap}
    (hledger : machine.disk.lookup gapLedgerPath = some bytes)
    (h : (recordGap codec gap).run.run machine = (.ok (), next)) :
    next.disk.lookup gapLedgerPath =
      some (recoveredLedger codec bytes ++ gapLine codec gap) := by
  have hends : Ends (recordGap codec gap) machine
      (fun _ next => next.disk.lookup gapLedgerPath =
        some (recoveredLedger codec bytes ++ gapLine codec gap)) fun _ _ => True := by
    unfold recordGap nextLedgerWrite
    simp only [ends_bind, ends_get, ends_modify, ends_pure]
    split
    case h_1 =>
      unfold modifyDisk setTotal modifyWriter
      simp only [ends_bind, ends_modify, hledger, Option.getD_some, AList.lookup_insert]
    case h_2 progress message _ =>
      unfold modifyDisk
      simp only [ends_bind, ends_modify, ends_throw]
  unfold Ends at hends
  rw [h] at hends
  exact hends

theorem LedgerAgrees.of_readable (hempty : codec.gapFromSlice [] = none)
    (hreadable : ∀ line ∈ keptLines codec ledger, Readable codec line) :
    LedgerAgrees codec ledger := by
  have hlines : lines newline (recoveredLedger codec ledger) = keptLines codec ledger :=
    lines_recoveredLedger ledger
  have hgaps : (keptLines codec ledger).filterMap (lineGap codec) = recordedGaps codec ledger := by
    rw [recordedGaps_eq]
    exact List.filterMap_congr fun line hline =>
      (hreadable line hline).lineGap_eq hempty (getLast?_of_mem_keptLines hline)
  refine
    { isPrefix := recoveredLedger_isPrefix ledger
      records := ?_
      ends := ?_
      idempotent := recoveredLedger_idempotent ledger
      visits := ?_
      appended := ?_ }
  · rw [hlines, filter_keptLines]
  · intro line hline
    rw [hlines] at hline
    exact isRecord_getLast hline
  · intro disk hdisk
    rw [← hgaps, ← hlines]
    refine visitsGaps_of_bounded hdisk fun line hline => ?_
    rw [hlines] at hline
    exact (hreadable line hline).bounded
  · intro machine next gap hgap hledger hrun
    have hnext := recordGap_appends hledger hrun
    have hnew : lines newline (recoveredLedger codec ledger ++ gapLine codec gap) =
        keptLines codec ledger ++ [gapLine codec gap] := by
      rw [gapLine, ← List.append_assoc,
        lines_append_line (getLast?_recoveredLedger ledger) hgap.oneLine, hlines]
    have htext : codec.gapToVec gap ≠ [] := by
      intro hnil
      have hread := hgap.readsBack
      rw [hnil, hempty] at hread
      cases hread
    have hlast : (gapLine codec gap).getLast? = some newline := List.getLast?_concat
    have hfound : lineGap codec (gapLine codec gap) = some gap := by
      rw [lineGap_complete hempty hlast, gapLine, List.dropLast_concat, hgap.readsBack]
    have hvisited : recordedGaps codec ledger ++ [gap] =
        (lines newline (recoveredLedger codec ledger ++ gapLine codec gap)).filterMap
          (lineGap codec) := by
      rw [hnew, List.filterMap_append, hgaps, List.filterMap_cons, hfound]
      rfl
    rw [recoveredLedger_idempotent] at hnext
    rw [hvisited]
    refine visitsGaps_of_bounded hnext fun line hline => ?_
    rw [hnew] at hline
    rcases List.mem_append.mp hline with hline | hline
    · exact (hreadable line hline).bounded
    · rw [List.mem_singleton.mp hline, gapLine, List.length_append, List.length_singleton]
      exact hgap.bounded

theorem length_filterMap_le {α β : Type*} {f g : α → Option β} {items : List α}
    (hle : ∀ item ∈ items, g item = f item ∨ g item = none) :
    (items.filterMap g).length ≤ (items.filterMap f).length := by
  rw [List.length_filterMap_eq_countP, List.length_filterMap_eq_countP]
  refine List.countP_mono_left fun item hitem hsome => ?_
  rcases hle item hitem with hsame | hnone
  · rw [← hsame]
    exact hsome
  · rw [hnone] at hsome
    cases hsome

/-- Two selections of which one leaves out some of the other are the same when they
come to the same list. -/
theorem eq_of_filterMap_eq {α β : Type*} {f g : α → Option β} {items : List α}
    (hle : ∀ item ∈ items, g item = f item ∨ g item = none)
    (h : items.filterMap f = items.filterMap g) : ∀ item ∈ items, f item = g item := by
  induction items with
  | nil => exact fun item hitem => by cases hitem
  | cons first items ih =>
      have hrest := fun item hitem => hle item (List.mem_cons_of_mem first hitem)
      have hfirst : f first = g first := by
        rcases hle first List.mem_cons_self with hsame | hnone
        · exact hsame.symm
        · cases hf : f first with
          | none => exact hnone.symm
          | some b =>
              have hlength := length_filterMap_le hrest
              rw [List.filterMap_cons_some hf, List.filterMap_cons_none hnone] at h
              rw [← h, List.length_cons] at hlength
              omega
      have hothers : items.filterMap f = items.filterMap g := by
        rw [List.filterMap_cons, List.filterMap_cons, hfirst] at h
        cases hg : g first with
        | none =>
            rw [hg] at h
            exact h
        | some b =>
            rw [hg] at h
            exact (List.cons.inj h).2
      intro item hitem
      rcases List.mem_cons.mp hitem with rfl | hitem
      · exact hfirst
      · exact ih hrest hothers item hitem

theorem foldlM_collect (gaps seen : List StoredGap) :
    gaps.foldlM (fun seen gap => (.ok (seen ++ [gap]) : Except JournalError _)) seen =
      .ok (seen ++ gaps) := by
  induction gaps generalizing seen with
  | nil =>
      rw [List.append_nil]
      rfl
  | cons gap gaps ih =>
      rw [List.foldlM_cons, Except.ok_bind, ih, List.append_assoc, List.singleton_append]

theorem VisitsGaps.unique {disk : Disk} {gaps others : List StoredGap}
    (h : VisitsGaps codec disk gaps) (h' : VisitsGaps codec disk others) : gaps = others := by
  have hbudget := permits_new (ledgerBytes disk).length
  have hvisit := h _ (fun seen gap => .ok (seen ++ [gap])) [] _ hbudget
  rw [h' _ _ _ _ hbudget, foldlM_collect, foldlM_collect] at hvisit
  exact (Except.ok.inj hvisit).symm

theorem not_visitsGaps_of_long {disk : Disk} {gaps : List StoredGap}
    (hdisk : disk.lookup gapLedgerPath = some bytes)
    (hlong : ∃ line ∈ lines newline bytes, maxGapLedgerLineBytes < line.length) :
    ¬VisitsGaps codec disk gaps := by
  intro h
  have hbudget := permits_new bytes.length
  have hvisit := h _ (fun seen gap => .ok (seen ++ [gap])) [] _
    (by rw [ledgerBytes, hdisk]; exact hbudget)
  rw [visitGapLedger, hdisk, foldlM_collect] at hvisit
  cases hresult : visitGapPieces codec (fun seen gap => .ok (seen ++ [gap])) (ledgerPieces bytes)
      [] (QueryBudget.new (bytes.length + 1) fun _ => false) with
  | error e =>
      dsimp only at hvisit
      rw [hresult] at hvisit
      cases hvisit
  | ok result => exact visitGapPieces_ne_ok hbudget hlong result hresult

/-- Where recovery and queries agree, each line which recovery keeps is readable. -/
theorem LedgerAgrees.readable (hempty : codec.gapFromSlice [] = none)
    (h : LedgerAgrees codec ledger) : ∀ line ∈ keptLines codec ledger, Readable codec line := by
  have hlines : lines newline (recoveredLedger codec ledger) = keptLines codec ledger :=
    lines_recoveredLedger ledger
  let disk : Disk := (∅ : Disk).insert gapLedgerPath (recoveredLedger codec ledger)
  have hdisk : disk.lookup gapLedgerPath = some (recoveredLedger codec ledger) :=
    AList.lookup_insert _
  have hvisits := h.visits disk hdisk
  have hbounded : ∀ line ∈ keptLines codec ledger, line.length ≤ maxGapLedgerLineBytes := by
    intro line hline
    by_contra hlong
    exact not_visitsGaps_of_long hdisk ⟨line, hlines ▸ hline, not_le.mp hlong⟩ hvisits
  have hgaps : (keptLines codec ledger).filterMap (lineGap codec) = recordedGaps codec ledger := by
    rw [← hlines]
    exact (visitsGaps_of_bounded hdisk (hlines ▸ hbounded)).unique hvisits
  rw [recordedGaps_eq] at hgaps
  have hsame := eq_of_filterMap_eq (fun line _ => by split <;> simp) hgaps
  intro line hline
  refine ⟨hbounded line hline, fun gap hgap => ?_⟩
  have hlast := getLast?_of_mem_keptLines hline
  have hfound : lineGap codec line = some gap := by rw [lineGap_complete hempty hlast, hgap]
  have hrecord : isRecord codec line := by
    by_contra hnot
    have hnone := hsame line hline
    rw [if_neg hnot, hfound] at hnone
    cases hnone
  exact (Readable.of_isRecord hrecord).valid gap hgap

/-- The ledger's writer, its recovery and its readers agree exactly when every line in front
of a complete valid record is one which a query can read, and no gap which is not valid. -/
theorem ledgerAgrees_iff (hempty : codec.gapFromSlice [] = none) :
    LedgerAgrees codec ledger ↔
      ∀ before after, lines newline ledger = before ++ after →
        (∃ record ∈ after, isRecord codec record) → ∀ line ∈ before, Readable codec line := by
  have hkept : (∀ line ∈ keptLines codec ledger, Readable codec line) ↔ _ :=
    forall_mem_rdropWhile_iff (p := fun line => !isRecord codec line) fun line hline =>
      Readable.of_isRecord (by simpa using hline)
  simp only [Bool.not_eq_true, Bool.not_eq_false'] at hkept
  rw [← hkept]
  exact ⟨LedgerAgrees.readable hempty, LedgerAgrees.of_readable hempty⟩

theorem isRecord_gapLine {gap : StoredGap} (hgap : codec.ReadsGap gap)
    (hport : validatePort gap.port = .ok ()) (hrange : gap.firstSeq ≤ gap.lastSeq) :
    isRecord codec (gapLine codec gap) := by
  have hlast : (gapLine codec gap).getLast? = some newline := List.getLast?_concat
  refine (isRecord_iff hlast).mpr ⟨?_, gap, ?_, hport, hrange⟩
  · rw [gapLine, List.length_append, List.length_singleton]
    exact hgap.bounded
  · rw [gapLine, List.dropLast_concat, hgap.readsBack]

theorem not_ledgerAgrees (hempty : codec.gapFromSlice [] = none) {gap : StoredGap}
    (hgap : codec.ReadsGap gap) (hport : validatePort gap.port = .ok ())
    (hrange : gap.firstSeq ≤ gap.lastSeq) (hnewline : newline ∉ text)
    (hunreadable : ¬Readable codec (text ++ [newline])) :
    ¬LedgerAgrees codec (text ++ newline :: gapLine codec gap) := by
  intro h
  have hlines : lines newline (gapLine codec gap) = [gapLine codec gap] := lines_append hgap.oneLine
  have hkept : keptLines codec (gapLine codec gap) ≠ [] := by
    rw [keptLines, hlines, List.rdropWhile_singleton, isRecord_gapLine hgap hport hrange]
    exact List.cons_ne_nil _ _
  refine hunreadable (h.readable hempty _ ?_)
  rw [keptLines_append hnewline, if_neg hkept]
  exact List.mem_cons_self

end

/-! ## Ledgers -/

def evictedGap : StoredGap where
  port := "usb"
  epoch := 7
  firstSeq := 3
  lastSeq := 5
  reason := .retention
  recordedWallTimeNs := 1

def invertedGap : StoredGap := { evictedGap with firstSeq := 6 }

def gapCodec : Codec := textCodec [] [] [evictedGap, invertedGap]

theorem textCodec_readsGap {gaps : List StoredGap} {gap : StoredGap} (hmem : gap ∈ gaps)
    (hdistinct : (gaps.map fun gap => HexName.utf8 gap.toJson).Nodup)
    (hline : newline ∉ HexName.utf8 gap.toJson)
    (hbounded : (HexName.utf8 gap.toJson).length < maxGapLedgerLineBytes) :
    (textCodec [] [] gaps).ReadsGap gap where
  readsBack := readBack_of_mem hmem hdistinct
  oneLine := hline
  bounded := hbounded

theorem gapCodec_distinct :
    ([evictedGap, invertedGap].map fun gap => HexName.utf8 gap.toJson).Nodup := by
  decide

set_option maxRecDepth 100000 in
theorem gapCodec_readsEvicted : gapCodec.ReadsGap evictedGap :=
  textCodec_readsGap List.mem_cons_self gapCodec_distinct (by decide) (by decide)

set_option maxRecDepth 100000 in
theorem gapCodec_readsInverted : gapCodec.ReadsGap invertedGap :=
  textCodec_readsGap (List.mem_cons_of_mem _ List.mem_cons_self) gapCodec_distinct
    (by decide) (by decide)

example : gapCodec.gapFromSlice [] = none := by decide +kernel

/-- One record and the torn beginning of another. -/
theorem ledgerAgrees_torn :
    gapCodec.gapFromSlice [] = none ∧
      LedgerAgrees gapCodec (gapLine gapCodec evictedGap ++ [123, 34, 112]) := by
  have hempty : gapCodec.gapFromSlice [] = none := by decide
  have hgap := gapCodec_readsEvicted
  have hlines : lines newline (gapLine gapCodec evictedGap ++ [123, 34, 112]) =
      [gapLine gapCodec evictedGap, [123, 34, 112]] := by
    rw [gapLine, List.append_assoc, List.singleton_append, lines_append hgap.oneLine]
    rfl
  refine ⟨hempty, (ledgerAgrees_iff hempty).mpr fun before after hsplit hrecord line hline => ?_⟩
  rw [hlines] at hsplit
  have hfirst := isRecord_gapLine hgap (by decide) (by decide)
  match before, hsplit with
  | [], _ => cases hline
  | [first], hsplit =>
      rw [List.mem_singleton.mp hline, ← (List.cons.inj hsplit).1]
      exact Readable.of_isRecord hfirst
  | [_, _], hsplit =>
      obtain ⟨record, hmem, -⟩ := hrecord
      have hafter : [] = after := (List.cons.inj (List.cons.inj hsplit).2).2
      rw [← hafter] at hmem
      cases hmem

/-- A query takes a gap for real which recovery does not count, and gives up at a line of
more than 64 KiB, where a record follows. -/
theorem ledger_readers_disagree :
    ¬LedgerAgrees gapCodec (gapLine gapCodec invertedGap ++ gapLine gapCodec evictedGap) ∧
      ¬LedgerAgrees gapCodec
        (List.replicate maxGapLedgerLineBytes 32 ++ newline :: gapLine gapCodec evictedGap) := by
  have hempty : gapCodec.gapFromSlice [] = none := by decide
  have hgap := gapCodec_readsEvicted
  have hinverted := gapCodec_readsInverted
  constructor
  · rw [gapLine, List.append_assoc, List.singleton_append]
    refine not_ledgerAgrees hempty hgap (by decide) (by decide) hinverted.oneLine fun h => ?_
    have hrange := (h.valid invertedGap (by rw [List.dropLast_concat, hinverted.readsBack])).2
    exact absurd hrange (by decide)
  · refine not_ledgerAgrees hempty hgap (by decide) (by decide) ?_ fun h => ?_
    · exact fun h => absurd (List.eq_of_mem_replicate h) (by decide)
    · have hbounded := h.bounded
      rw [List.length_append, List.length_replicate, List.length_singleton] at hbounded
      omega

end SerialPlatform.Journal
