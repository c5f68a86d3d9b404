import SerialPlatform.JournalRange

/-!
# A range on disk

The files of an epoch tell one story in order.  A query which asks behind a cursor inside
of a stored range leaves out only files with nothing behind the cursor, so its scan has the
rest of the range ahead.
-/

namespace SerialPlatform.Journal

open RecordLog StatefulSteps

/-- The segment files of an epoch. -/
def epochFiles (disk : Disk) (port : String) (epoch : Uuid) : List Path :=
  (filesIn disk (.epoch port epoch)).filter fun path => path.isSealed || path.isOpen

/-- The records of a segment which can be read. -/
def segmentRecords (codec : Codec) (disk : Disk) (segment : SegmentDescriptor) :
    List TimelineEvent :=
  ((readSegment codec disk segment.path).map Contents.values).getD []

def inScanOrder (segments : List SegmentDescriptor) : List SegmentDescriptor :=
  segments.insertionSort fun a b => a.scanKey ≤ b.scanKey

def epochSegments (codec : Codec) (disk : Disk) (port : String) (epoch : Uuid) :
    List SegmentDescriptor :=
  inScanOrder ((epochFiles disk port epoch).filterMap (segmentAt codec disk namedLastSeq))

/-- Every record of an epoch, in the order of its segments. -/
def epochRecords (codec : Codec) (disk : Disk) (port : String) (epoch : Uuid) :
    List TimelineEvent :=
  (epochSegments codec disk port epoch).flatMap (segmentRecords codec disk)

/-- The files of an epoch hold its records in order, as their headers and names say. -/
structure Chronicle (codec : Codec) (disk : Disk) (port : String) (epoch : Uuid) : Prop where
  owned : ∀ segment ∈ epochSegments codec disk port epoch, segment.header.daemonEpoch = epoch
  increasing : ∀ segment ∈ epochSegments codec disk port epoch,
    (segmentRecords codec disk segment).Pairwise fun a b => a.seq < b.seq
  ordered : ∀ a ∈ epochSegments codec disk port epoch, ∀ b ∈ epochSegments codec disk port epoch,
    a.path ≠ b.path → a.scanKey ≤ b.scanKey →
      ∀ x ∈ segmentRecords codec disk a, ∀ y ∈ segmentRecords codec disk b, x.seq < y.seq
  headed : ∀ segment ∈ epochSegments codec disk port epoch,
    ∀ event ∈ segmentRecords codec disk segment, segment.header.firstSeq ≤ event.seq
  named : ∀ segment ∈ epochSegments codec disk port epoch,
    ∀ event ∈ segmentRecords codec disk segment, ∀ firstSeq,
      parseSegmentFirstSeq segment.path = some firstSeq → firstSeq ≤ event.seq
  namedLast : ∀ segment ∈ epochSegments codec disk port epoch,
    ∀ event ∈ segmentRecords codec disk segment, ∀ firstSeq lastSeq,
      segment.path.isSealed = true → parseSealedSeqRange segment.path = some (firstSeq, lastSeq) →
      event.seq ≤ lastSeq

/-- The ranges of the ledger. -/
def ledgerGaps (codec : Codec) (disk : Disk) : List StoredGap :=
  ((disk.lookup gapLedgerPath).map fun ledger => (ledgerPieces ledger).filterMap fun piece =>
    let line := if piece.getLast? = some newline then piece.dropLast else piece
    if line = [] then none else codec.gapFromSlice line).getD []

/-- A chronicle which holds a range of records, and nothing says that one is missing. -/
structure Stores (codec : Codec) (disk : Disk) (port : String) (epoch : Uuid)
    (first last : ℕ) (range : List TimelineEvent) : Prop extends
    Chronicle codec disk port epoch where
  stored : ∀ event ∈ range, event ∈ epochRecords codec disk port epoch
  ledger : ∀ gap ∈ ledgerGaps codec disk, gap.port = port → gap.epoch = epoch →
    gap.lastSeq < first ∨ last < gap.firstSeq
  sound : ∀ segment ∈ epochSegments codec disk port epoch, ∀ contents,
    readSegment codec disk segment.path = some contents →
    ∀ gap, corruptRange segment contents.tail (lastRecordSeq contents) = some gap →
      gap.IsBeside epoch first last

section

variable {codec : Codec} {disk : Disk} {port : String} {epoch : Uuid} {query : EventQuery}
  {search : Search} {afterSeq throughSeq first last : ℕ} {segment : SegmentDescriptor}
  {segments : List SegmentDescriptor}

/-! ## Segments and their files -/

theorem segmentAt_path {path : Path} (h : segmentAt codec disk namedLastSeq path = some segment) :
    segment.path = path ∧ segment.isSealed = path.isSealed := by
  unfold segmentAt at h
  cases hlookup : disk.lookup path with
  | none =>
      rw [hlookup] at h
      cases h
  | some bytes =>
      rw [hlookup] at h
      dsimp only at h
      cases hheader : readSegmentHeader codec path bytes with
      | error e =>
          rw [hheader] at h
          cases h
      | ok found =>
          rw [hheader] at h
          cases h
          exact ⟨rfl, rfl⟩

theorem segmentAt_lastSeq {path : Path}
    (h : segmentAt codec disk namedLastSeq path = some segment) {contents : Contents TimelineEvent}
    (hread : readSegment codec disk path = some contents) :
    segment.lastSeq = (if path.isSealed then namedLastSeq path segment.header else none).or
      (lastRecordSeq contents) := by
  unfold segmentAt at h
  unfold readSegment at hread
  cases hlookup : disk.lookup path with
  | none =>
      rw [hlookup] at h
      cases h
  | some bytes =>
      rw [hlookup] at h hread
      dsimp only at h hread
      cases hheader : readSegmentHeader codec path bytes with
      | error e =>
          rw [hheader] at h
          cases h
      | ok found =>
          rw [hheader] at h hread
          cases h
          cases hread
          rfl

theorem mem_epochSegments :
    segment ∈ epochSegments codec disk port epoch ↔
      ∃ path ∈ epochFiles disk port epoch,
        segmentAt codec disk namedLastSeq path = some segment := by
  unfold epochSegments inScanOrder
  rw [List.mem_insertionSort, List.mem_filterMap]

/-- Segments of different files, in scan order. -/
theorem inScanOrder_pairwise {paths : List Path} (hpaths : paths.Nodup) :
    (inScanOrder (paths.filterMap (segmentAt codec disk namedLastSeq))).Pairwise fun a b =>
      a.scanKey ≤ b.scanKey ∧ a.path ≠ b.path := by
  have : Std.Total fun a b : SegmentDescriptor => a.scanKey ≤ b.scanKey :=
    ⟨fun a b => le_total _ _⟩
  have : IsTrans SegmentDescriptor fun a b => a.scanKey ≤ b.scanKey := ⟨fun _ _ _ => le_trans⟩
  apply List.Pairwise.and (List.pairwise_insertionSort _ _)
  have hdistinct : (paths.filterMap (segmentAt codec disk namedLastSeq)).Pairwise
      fun a b => a.path ≠ b.path := by
    rw [List.pairwise_filterMap]
    apply hpaths.imp
    intro a b hne segment hsegment other hother
    rw [(segmentAt_path hsegment).1, (segmentAt_path hother).1]
    exact hne
  exact (List.perm_insertionSort _ _).symm.pairwise hdistinct fun h => h.symm

/-! ## Records -/

theorem Chronicle.pairwise_flatMap (h : Chronicle codec disk port epoch)
    (hsegments : ∀ segment ∈ segments, segment ∈ epochSegments codec disk port epoch)
    (hordered : segments.Pairwise fun a b => a.scanKey ≤ b.scanKey ∧ a.path ≠ b.path) :
    (segments.flatMap (segmentRecords codec disk)).Pairwise fun a b => a.seq < b.seq := by
  rw [List.pairwise_flatMap]
  refine ⟨fun segment hsegment => h.increasing segment (hsegments segment hsegment), ?_⟩
  apply hordered.imp_of_mem
  intro a b ha hb hboth
  exact h.ordered a (hsegments a ha) b (hsegments b hb) hboth.2 hboth.1

theorem Chronicle.records_increasing (h : Chronicle codec disk port epoch) :
    (epochRecords codec disk port epoch).Pairwise fun a b => a.seq < b.seq := by
  apply h.pairwise_flatMap (fun _ hsegment => hsegment)
  exact inScanOrder_pairwise (((FileStore.select_nodup _ _)).filter _)

theorem parseSegmentFirstSeq_of_range {path : Path} {firstSeq lastSeq : ℕ}
    (h : parseSealedSeqRange path = some (firstSeq, lastSeq)) :
    parseSegmentFirstSeq path = some firstSeq := by
  unfold parseSealedSeqRange at h
  unfold parseSegmentFirstSeq
  obtain ⟨found, hfound, h⟩ := Option.bind_eq_some_iff.1 h
  obtain ⟨behind, -, h⟩ := Option.bind_eq_some_iff.1 h
  obtain ⟨last, -, h⟩ := Option.bind_eq_some_iff.1 h
  obtain ⟨rfl, rfl⟩ := Prod.mk.inj (Option.some.inj h)
  exact hfound

/-! ## The candidates of a query -/

/-- The first number which the name of a segment file gives. -/
def namedFirst (path : Path) : Option ℕ :=
  match (if path.isSealed then parseSealedSeqRange path else none) with
  | some range => some range.1
  | none => parseSegmentFirstSeq path

/-- The name of a file does not say that the file lies beside the range of the query. -/
def EventQuery.mayFind (query : EventQuery) (path : Path) : Bool :=
  match (if path.isSealed then parseSealedSeqRange path else none), parseSegmentFirstSeq path with
  | some range, _ => decide (range.1 ≤ query.ceiling) && decide (query.floor < range.2)
  | none, some firstSeq => decide (firstSeq ≤ query.ceiling)
  | none, none => true

theorem addCandidate_eq (hseed : query.needsSearchSeed = false) (candidates : Candidates)
    (path : Path) : addCandidate query candidates path =
      { candidates with
        paths := candidates.paths ++
          if (path.isSealed || path.isOpen) && query.mayFind path then [path] else []
        firstAvailableSeq :=
          match if path.isSealed || path.isOpen then namedFirst path else none with
          | some firstSeq => minSeq candidates.firstAvailableSeq firstSeq
          | none => candidates.firstAvailableSeq } := by
  unfold addCandidate namedFirst EventQuery.mayFind
  cases hsegment : path.isSealed || path.isOpen with
  | false => simp
  | true =>
      rw [if_pos rfl]
      dsimp only
      generalize (if path.isSealed then parseSealedSeqRange path else none) = range
      cases range with
      | some range =>
          obtain ⟨firstSeq, lastSeq⟩ := range
          by_cases hceiling : query.ceiling < firstSeq
          · simp [hceiling, not_le.2 hceiling]
          · by_cases hfloor : lastSeq ≤ query.floor
            · simp [hceiling, hfloor, hseed, not_lt.2 hfloor]
            · simp [hceiling, hfloor, not_lt.1 hceiling, not_le.1 hfloor]
      | none =>
          cases parseSegmentFirstSeq path with
          | some firstSeq =>
              by_cases hceiling : query.ceiling < firstSeq
              · simp [hceiling, not_le.2 hceiling]
              · simp [hceiling, not_lt.1 hceiling]
          | none => simp

/-! ## The first number which is there -/

/-- The number is at most a bound. -/
def AtMost (bound : ℕ) (seq : Option ℕ) : Prop := ∃ found, seq = some found ∧ found ≤ bound

theorem atMost_minSeq (first : Option ℕ) (seq : ℕ) : AtMost seq (minSeq first seq) := by
  cases first with
  | none => exact ⟨seq, rfl, le_refl _⟩
  | some first => exact ⟨min first seq, rfl, min_le_right _ _⟩

theorem AtMost.minSeq {bound : ℕ} {first : Option ℕ} (h : AtMost bound first) (seq : ℕ) :
    AtMost bound (minSeq first seq) := by
  obtain ⟨found, rfl, hle⟩ := h
  exact ⟨min found seq, rfl, (min_le_left _ _).trans hle⟩

theorem AtMost.foldl_segments {bound : ℕ} {first : Option ℕ} (h : AtMost bound first)
    (segments : List SegmentDescriptor) :
    AtMost bound (segments.foldl (fun first segment => Journal.minSeq first segment.header.firstSeq)
      first) := by
  induction segments generalizing first with
  | nil => exact h
  | cons segment rest ih => exact ih (h.minSeq _)

theorem atMost_foldl_of_mem {first : Option ℕ} (hsegment : segment ∈ segments) :
    AtMost segment.header.firstSeq
      (segments.foldl (fun first segment => minSeq first segment.header.firstSeq) first) := by
  induction segments generalizing first with
  | nil => cases hsegment
  | cons other rest ih =>
      rcases List.mem_cons.1 hsegment with rfl | hrest
      · exact (atMost_minSeq _ _).foldl_segments rest
      · exact ih hrest

theorem AtMost.addCandidate {bound : ℕ} {candidates : Candidates}
    (h : AtMost bound candidates.firstAvailableSeq) (hseed : query.needsSearchSeed = false)
    (path : Path) : AtMost bound (addCandidate query candidates path).firstAvailableSeq := by
  rw [addCandidate_eq hseed]
  dsimp only
  split
  · exact h.minSeq _
  · exact h

/-- What a listing of files finds. -/
theorem foldl_addCandidate (hseed : query.needsSearchSeed = false) (paths : List Path)
    (candidates : Candidates) :
    (paths.foldl (addCandidate query) candidates).paths = candidates.paths ++
        paths.filter (fun path => (path.isSealed || path.isOpen) && query.mayFind path) ∧
      (paths.foldl (addCandidate query) candidates).seed = candidates.seed ∧
      (∀ bound, AtMost bound candidates.firstAvailableSeq →
        AtMost bound (paths.foldl (addCandidate query) candidates).firstAvailableSeq) ∧
      ∀ path ∈ paths, (path.isSealed || path.isOpen) = true → ∀ firstSeq,
        namedFirst path = some firstSeq →
        AtMost firstSeq (paths.foldl (addCandidate query) candidates).firstAvailableSeq := by
  induction paths generalizing candidates with
  | nil => exact ⟨by simp, rfl, fun _ h => h, by simp⟩
  | cons path rest ih =>
      obtain ⟨hpaths, hseeds, hbound, hnamed⟩ := ih (addCandidate query candidates path)
      refine ⟨?_, ?_, fun bound h => hbound bound (h.addCandidate hseed path), ?_⟩
      · rw [List.foldl_cons, hpaths, addCandidate_eq hseed, List.filter_cons]
        dsimp only
        split_ifs <;> simp
      · rw [List.foldl_cons, hseeds, addCandidate_eq hseed]
      · intro other hother hsegment firstSeq hfirst
        rcases List.mem_cons.1 hother with rfl | hrest
        · refine hbound firstSeq ?_
          rw [addCandidate_eq hseed, if_pos hsegment, hfirst]
          exact atMost_minSeq _ _
        · exact hnamed other hrest hsegment firstSeq hfirst

/-! ## What a query scans -/

/-- The segments which an unfiltered query scans are segments of its epoch. -/
theorem Chronicle.scannedSegments_eq (h : Chronicle codec disk port epoch)
    (hplain : query.IsPlain epoch afterSeq throughSeq) :
    scannedSegments codec disk port query =
      inScanOrder (((epochFiles disk port epoch).filter query.mayFind).filterMap
        (segmentAt codec disk namedLastSeq)) := by
  obtain ⟨hpaths, hseed, -, -⟩ := foldl_addCandidate hplain.needsSearchSeed_eq
    (filesIn disk (.epoch port epoch)) { paths := [], seed := none, firstAvailableSeq := none }
  have hsegments : querySegments codec disk port query =
      ((epochFiles disk port epoch).filter query.mayFind).filterMap
        (segmentAt codec disk namedLastSeq) := by
    unfold querySegments
    rw [hplain.epoch]
    dsimp only
    rw [hpaths, hseed]
    simp [epochFiles, List.filter_filter, Bool.and_comm]
  unfold scannedSegments scanOrder inScanOrder queryEpoch
  dsimp only
  rw [hsegments, hplain.epoch, Option.some_or, List.filter_eq_self.2]
  intro segment hsegment
  have hmem : segment ∈ epochSegments codec disk port epoch := by
    obtain ⟨path, hpath, hfound⟩ := List.mem_filterMap.1 hsegment
    exact mem_epochSegments.2 ⟨path, List.mem_of_mem_filter hpath, hfound⟩
  rw [h.owned segment hmem]
  exact decide_eq_true rfl

/-! ## The stops of the scan -/

theorem recordsOf_append (first second : List Stop) :
    recordsOf (first ++ second) = recordsOf first ++ recordsOf second := List.filterMap_append

theorem recordsOf_segment (codec : Codec) (disk : Disk) (segment : SegmentDescriptor) :
    recordsOf (((readSegment codec disk segment.path).map (segmentStops segment)).getD []) =
      segmentRecords codec disk segment := by
  unfold segmentRecords
  cases readSegment codec disk segment.path with
  | none => rfl
  | some contents =>
      have hrecords : Stop.event ∘ Stop.record segment = some := rfl
      simp [recordsOf, segmentStops, List.filterMap_append, List.filterMap_map, hrecords,
        Stop.event]

theorem recordsOf_scanStops_sublist (segments : List SegmentDescriptor) :
    (recordsOf (scanStops codec disk search segments)).Sublist
      (segments.flatMap (segmentRecords codec disk)) := by
  induction segments with
  | nil => exact List.nil_sublist _
  | cons segment rest ih =>
      unfold scanStops
      rw [List.flatMap_cons]
      split_ifs
      · exact List.nil_sublist _
      · exact ih.trans (List.sublist_append_right _ _)
      · rw [recordsOf_append, recordsOf_segment]
        exact List.Sublist.append (List.Sublist.refl _) ih

/-- A segment which begins within the range and is not consumed is scanned. -/
theorem mem_recordsOf_scanStops {event : TimelineEvent}
    (hordered : segments.Pairwise fun a b => a.scanKey ≤ b.scanKey)
    (hsegment : segment ∈ segments) (hceiling : segment.header.firstSeq ≤ search.query.ceiling)
    (hconsumed : segment.isConsumed search.query = false)
    (hevent : event ∈ segmentRecords codec disk segment) :
    event ∈ recordsOf (scanStops codec disk search segments) := by
  induction segments with
  | nil => cases hsegment
  | cons other rest ih =>
      obtain ⟨hfirst, hrest⟩ := List.pairwise_cons.1 hordered
      unfold scanStops
      have hbegins : ¬ search.query.ceiling < other.header.firstSeq := by
        rcases List.mem_cons.1 hsegment with rfl | hmem
        · exact not_lt.2 hceiling
        · have hkey := Prod.Lex.le_iff.1 (hfirst segment hmem)
          have hle : other.header.firstSeq ≤ segment.header.firstSeq := by
            rcases hkey with hlt | ⟨heq, -⟩
            · exact le_of_lt hlt
            · exact le_of_eq heq
          exact not_lt.2 (hle.trans hceiling)
      rw [if_neg hbegins]
      split_ifs with hskip
      · rcases List.mem_cons.1 hsegment with rfl | hmem
        · rw [hconsumed] at hskip
          cases hskip
        · exact ih hrest hmem
      · rw [recordsOf_append, recordsOf_segment]
        rcases List.mem_cons.1 hsegment with rfl | hmem
        · exact List.mem_append_left _ hevent
        · exact List.mem_append_right _ (ih hrest hmem)

/-- A stretch which is given as corrupt is one of a scanned segment. -/
theorem corrupt_of_mem_scanStops {stop : Stop} {gap : GapRange}
    (hstop : stop ∈ scanStops codec disk search segments) (hgap : stop.corrupt = some gap) :
    ∃ segment ∈ segments, ∃ contents, readSegment codec disk segment.path = some contents ∧
      corruptRange segment contents.tail (lastRecordSeq contents) = some gap := by
  induction segments with
  | nil => cases hstop
  | cons segment rest ih =>
      unfold scanStops at hstop
      split_ifs at hstop
      · cases hstop
      · obtain ⟨found, hfound, hcorrupt⟩ := ih hstop
        exact ⟨found, List.mem_cons_of_mem _ hfound, hcorrupt⟩
      · rcases List.mem_append.1 hstop with hhere | hlater
        · cases hread : readSegment codec disk segment.path with
          | none =>
              rw [hread] at hhere
              cases hhere
          | some contents =>
              rw [hread] at hhere
              refine ⟨segment, List.mem_cons_self, contents, hread, ?_⟩
              rcases List.mem_append.1 hhere with hrecord | htail
              · obtain ⟨event, -, rfl⟩ := List.mem_map.1 hrecord
                cases hgap
              · rw [List.mem_singleton.1 htail] at hgap
                exact hgap
        · obtain ⟨found, hfound, hcorrupt⟩ := ih hlater
          exact ⟨found, List.mem_cons_of_mem _ hfound, hcorrupt⟩

/-! ## The rest of a stored range -/

/-- The records which a scan has behind its cursor. -/
def recordsBehind (codec : Codec) (disk : Disk) (search : Search)
    (segments : List SegmentDescriptor) (afterSeq throughSeq : ℕ) : List TimelineEvent :=
  (recordsOf (scanStops codec disk search segments)).filter fun event =>
    afterSeq < event.seq ∧ event.seq ≤ throughSeq

/-- The records of a segment do not go beyond its last number. -/
theorem Chronicle.le_lastSeq (h : Chronicle codec disk port epoch)
    (hsegment : segment ∈ epochSegments codec disk port epoch) {event : TimelineEvent}
    (hevent : event ∈ segmentRecords codec disk segment) {lastSeq : ℕ}
    (hlast : segment.lastSeq = some lastSeq) : event.seq ≤ lastSeq := by
  obtain ⟨path, -, hfound⟩ := mem_epochSegments.1 hsegment
  obtain ⟨rfl, hsealed⟩ := segmentAt_path hfound
  obtain ⟨contents, hread, hmem⟩ : ∃ contents,
      readSegment codec disk segment.path = some contents ∧ event ∈ contents.values := by
    unfold segmentRecords at hevent
    cases hread : readSegment codec disk segment.path with
    | none =>
        rw [hread] at hevent
        cases hevent
    | some contents =>
        rw [hread] at hevent
        exact ⟨contents, rfl, hevent⟩
  have hincreasing := h.increasing segment hsegment
  unfold segmentRecords at hincreasing
  rw [hread] at hincreasing
  rw [segmentAt_lastSeq hfound hread, Option.or_eq_some_iff] at hlast
  rcases hlast with hnamed | ⟨-, hscanned⟩
  · split_ifs at hnamed with hsealed
    obtain ⟨⟨firstSeq, last⟩, hrange, rfl⟩ := Option.map_eq_some_iff.1 hnamed
    exact h.namedLast segment hsegment event hevent firstSeq last hsealed
      (Option.filter_eq_some_iff.1 hrange).1
  · obtain ⟨final, hfinal, rfl⟩ := Option.map_eq_some_iff.1 hscanned
    obtain ⟨before, hsplit⟩ := List.getLast?_eq_some_iff.1 hfinal
    have hsorted : contents.values.Pairwise fun a b => a.seq < b.seq := hincreasing
    rw [hsplit] at hsorted hmem
    rcases List.mem_append.1 hmem with hbefore | hhere
    · exact le_of_lt ((List.pairwise_append.1 hsorted).2.2 event hbefore final (by simp))
    · rw [List.mem_singleton.1 hhere]

/-- The segment which holds a record of the range behind the cursor is scanned. -/
theorem Chronicle.scanned_of_mem (h : Chronicle codec disk port epoch)
    (hplain : search.query.IsPlain epoch afterSeq throughSeq) {event : TimelineEvent}
    (hevent : event ∈ epochRecords codec disk port epoch) (hafter : afterSeq < event.seq)
    (hthrough : event.seq ≤ throughSeq) :
    event ∈ recordsOf (scanStops codec disk search
      (scannedSegments codec disk port search.query)) := by
  obtain ⟨segment, hsegment, hrecord⟩ := List.mem_flatMap.1 hevent
  obtain ⟨path, hpath, hfound⟩ := mem_epochSegments.1 hsegment
  have hsame := (segmentAt_path hfound).1
  have hmay : search.query.mayFind path = true := by
    unfold EventQuery.mayFind
    rw [hplain.ceiling_eq, hplain.floor_eq]
    rw [← hsame]
    split
    next range firstSeq heq =>
      obtain ⟨hsealed, hrange⟩ : segment.path.isSealed = true ∧
          parseSealedSeqRange segment.path = some (firstSeq.1, firstSeq.2) := by
        split_ifs at heq with hsealed
        exact ⟨hsealed, heq⟩
      have hlast := h.namedLast segment hsegment event hrecord _ _ hsealed hrange
      have hfirst := h.named segment hsegment event hrecord _ (parseSegmentFirstSeq_of_range hrange)
      simp only [Bool.and_eq_true, decide_eq_true_eq]
      omega
    next range firstSeq _ heq =>
      have hfirst := h.named segment hsegment event hrecord _ heq
      exact decide_eq_true (hfirst.trans hthrough)
    next => rfl
  have hscanned : segment ∈ scannedSegments codec disk port search.query := by
    rw [h.scannedSegments_eq hplain]
    unfold inScanOrder
    rw [List.mem_insertionSort]
    exact List.mem_filterMap.2 ⟨path, List.mem_filter.2 ⟨hpath, hmay⟩, hfound⟩
  have hordered : (scannedSegments codec disk port search.query).Pairwise fun a b =>
      a.scanKey ≤ b.scanKey := by
    rw [h.scannedSegments_eq hplain]
    exact (inScanOrder_pairwise (((FileStore.select_nodup _ _).filter _).filter _)).imp fun h => h.1
  refine mem_recordsOf_scanStops hordered hscanned ?_ ?_ hrecord
  · rw [hplain.ceiling_eq]
    exact (h.headed segment hsegment event hrecord).trans hthrough
  · have hlast : ∀ lastSeq, segment.lastSeq = some lastSeq → event.seq ≤ lastSeq :=
      fun lastSeq hlastSeq => h.le_lastSeq hsegment hrecord hlastSeq
    unfold SegmentDescriptor.isConsumed
    rw [hplain.afterSeq]
    cases hlastSeq : segment.lastSeq with
    | none => rfl
    | some lastSeq =>
        have hle := hlast lastSeq hlastSeq
        simp only [Option.any_some, decide_eq_false_iff_not]
        omega

end

end SerialPlatform.Journal
