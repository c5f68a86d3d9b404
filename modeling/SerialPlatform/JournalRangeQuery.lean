import SerialPlatform.JournalStored

/-!
# Queries of a stored range

A query which asks behind a cursor inside of a stored range answers with the next stretch of the
range, and reports no gap in it.
-/

namespace SerialPlatform.Journal

open RecordLog StatefulSteps

/-- The answer to a query behind a cursor: what lies behind it up to a cut. -/
structure IsStretch (epoch : Uuid) (first last afterSeq throughSeq : ℕ)
    (range : List TimelineEvent) (response : EventQueryResponse) (cut : ℕ)
    (beyond : List TimelineEvent) : Prop where
  cursor : response.nextCursor = some { epoch := epoch, afterSeq := cut }
  events : response.events =
    range.filter (fun event => afterSeq < event.seq ∧ event.seq ≤ cut) ++ beyond
  past : ∀ event ∈ beyond, last < event.seq
  ends : beyond = [] ↔ cut ≤ last
  moves : afterSeq < cut
  within : cut ≤ throughSeq
  goesOn : cut < last → response.truncated = true
  available : ∀ firstSeq, response.firstAvailableSeq = some firstSeq → firstSeq ≤ first
  gaps : ∀ gap ∈ response.gaps, gap.IsBeside epoch first last

section

variable {codec : Codec} {engine : RegexEngine} {disk : Disk} {port : String} {epoch : Uuid}
  {query : EventQuery} {search : Search} {afterSeq throughSeq first last : ℕ}
  {range behind : List TimelineEvent}

/-! ## What lies behind the cursor -/

theorem Chronicle.scannedSegments_subset (h : Chronicle codec disk port epoch)
    (hplain : query.IsPlain epoch afterSeq throughSeq) :
    ∀ segment ∈ scannedSegments codec disk port query,
      segment ∈ epochSegments codec disk port epoch := by
  intro segment hsegment
  rw [h.scannedSegments_eq hplain] at hsegment
  unfold inScanOrder at hsegment
  rw [List.mem_insertionSort] at hsegment
  obtain ⟨path, hpath, hfound⟩ := List.mem_filterMap.1 hsegment
  exact mem_epochSegments.2 ⟨path, List.mem_of_mem_filter hpath, hfound⟩

theorem Chronicle.scannedSegments_ordered (h : Chronicle codec disk port epoch)
    (hplain : query.IsPlain epoch afterSeq throughSeq) :
    (scannedSegments codec disk port query).Pairwise fun a b =>
      a.scanKey ≤ b.scanKey ∧ a.path ≠ b.path := by
  rw [h.scannedSegments_eq hplain]
  exact inScanOrder_pairwise (((FileStore.select_nodup _ _).filter _).filter _)

theorem Chronicle.stops_increasing (h : Chronicle codec disk port epoch)
    (hplain : search.query.IsPlain epoch afterSeq throughSeq) :
    (recordsOf (scanStops codec disk search (scannedSegments codec disk port
      search.query))).Pairwise fun a b => a.seq < b.seq :=
  (h.pairwise_flatMap (h.scannedSegments_subset hplain)
    (h.scannedSegments_ordered hplain)).sublist (recordsOf_scanStops_sublist _)

theorem Chronicle.stops_subset (h : Chronicle codec disk port epoch)
    (hplain : search.query.IsPlain epoch afterSeq throughSeq) :
    ∀ event ∈ recordsOf (scanStops codec disk search (scannedSegments codec disk port
      search.query)), event ∈ epochRecords codec disk port epoch := by
  intro event hevent
  obtain ⟨segment, hsegment, hrecord⟩ :=
    List.mem_flatMap.1 ((recordsOf_scanStops_sublist _).subset hevent)
  exact List.mem_flatMap.2 ⟨segment, h.scannedSegments_subset hplain segment hsegment, hrecord⟩

theorem Stores.ahead (h : Stores codec disk port epoch first last range)
    (hplain : search.query.IsPlain epoch afterSeq throughSeq) :
    Ahead epoch first last afterSeq throughSeq
      (recordsBehind codec disk search (scannedSegments codec disk port search.query) afterSeq
        throughSeq)
      (scanStops codec disk search (scannedSegments codec disk port search.query)) afterSeq where
  increasing := h.stops_increasing hplain
  new event hevent hafter :=
    ⟨hafter, fun hthrough => List.mem_filter.2 ⟨hevent, decide_eq_true ⟨hafter, hthrough⟩⟩⟩
  rest event hevent _ := List.mem_of_mem_filter hevent
  sound stop hstop gap hgap := by
    obtain ⟨segment, hsegment, contents, hread, hcorrupt⟩ := corrupt_of_mem_scanStops hstop hgap
    exact h.sound segment (h.scannedSegments_subset hplain segment hsegment) contents hread gap
      hcorrupt

/-- A number of the range is one of its records. -/
theorem exists_of_numbers (hnumbers : range.map TimelineEvent.seq =
    List.range' first (last + 1 - first)) {seq : ℕ} (hfirst : first ≤ seq) (hlast : seq ≤ last) :
    ∃ event ∈ range, event.seq = seq := by
  have hmem : seq ∈ range.map TimelineEvent.seq := by
    rw [hnumbers, List.mem_range'_1]
    omega
  exact List.mem_map.1 hmem

theorem Stores.isBehind (h : Stores codec disk port epoch first last range)
    (hnumbers : range.map TimelineEvent.seq = List.range' first (last + 1 - first))
    (hplain : search.query.IsPlain epoch afterSeq throughSeq) (hstart : first ≤ afterSeq + 1)
    (hbefore : afterSeq < last) (hlast : last ≤ throughSeq) :
    IsBehind first last afterSeq (recordsBehind codec disk search
      (scannedSegments codec disk port search.query) afterSeq throughSeq) where
  increasing := (h.stops_increasing hplain).sublist List.filter_sublist
  after event hevent := (of_decide_eq_true (List.mem_filter.1 hevent).2).1
  stored seq hafter hseq := by
    obtain ⟨event, hevent, rfl⟩ := exists_of_numbers hnumbers (by omega) hseq
    refine ⟨event, List.mem_filter.2 ⟨?_, decide_eq_true ⟨hafter, by omega⟩⟩, rfl⟩
    exact h.scanned_of_mem hplain (h.stored event hevent) hafter (by omega)
  start := hstart
  before := hbefore

/-- Up to the end of the range the records behind the cursor are those of the range. -/
theorem Stores.behind_range (h : Stores codec disk port epoch first last range)
    (hnumbers : range.map TimelineEvent.seq = List.range' first (last + 1 - first))
    (hplain : search.query.IsPlain epoch afterSeq throughSeq) (hstart : first ≤ afterSeq + 1)
    (hlast : last ≤ throughSeq) (cut : ℕ) :
    (recordsBehind codec disk search (scannedSegments codec disk port search.query) afterSeq
        throughSeq).filter (fun event => event.seq ≤ min cut last) =
      range.filter fun event => afterSeq < event.seq ∧ event.seq ≤ cut := by
  have hirreflexive : Std.Irrefl fun a b : TimelineEvent => a.seq < b.seq :=
    ⟨fun _ => lt_irrefl _⟩
  have hantisymmetric : Std.Antisymm fun a b : TimelineEvent => a.seq < b.seq :=
    ⟨fun _ _ hab hba => absurd hab (lt_asymm hba)⟩
  have hsorted : range.Pairwise fun a b => a.seq < b.seq := by
    rw [← List.pairwise_map (R := (· < ·)), hnumbers]
    exact List.pairwise_lt_range'
  have hbounds : ∀ event ∈ range, first ≤ event.seq ∧ event.seq ≤ last := by
    intro event hevent
    have hmem := @List.mem_map_of_mem _ _ _ _ TimelineEvent.seq hevent
    rw [hnumbers, List.mem_range'_1] at hmem
    omega
  refine List.Pairwise.eq_of_mem_iff (((h.stops_increasing hplain).sublist
    List.filter_sublist).sublist List.filter_sublist) (hsorted.sublist List.filter_sublist) ?_
  intro event
  simp only [recordsBehind, List.mem_filter, decide_eq_true_eq]
  constructor
  · rintro ⟨⟨hscanned, hafter, -⟩, hcut⟩
    obtain ⟨other, hother, hseq⟩ := exists_of_numbers hnumbers (by omega : first ≤ event.seq)
      (by omega)
    have hdistinct : ((epochRecords codec disk port epoch).map TimelineEvent.seq).Nodup :=
      (List.pairwise_map.2 h.records_increasing).imp ne_of_lt
    have hsame : other = event := List.inj_on_of_nodup_map hdistinct (h.stored other hother)
      (h.stops_subset hplain event hscanned) hseq
    rw [← hsame]
    exact ⟨hother, by omega, by omega⟩
  · rintro ⟨hevent, hafter, hcut⟩
    have hbound := hbounds event hevent
    refine ⟨⟨h.scanned_of_mem hplain (h.stored event hevent) hafter (by omega), hafter, by omega⟩,
      by omega⟩

/-! ## What is reported missing -/

theorem beside_clipGap {gap : StoredGap}
    (h : gap.epoch = epoch → gap.lastSeq < first ∨ last < gap.firstSeq) :
    (clipGap query gap).IsBeside epoch first last := by
  intro hepoch
  have hfirst : gap.firstSeq ≤ (clipGap query gap).firstSeq := by
    unfold clipGap
    dsimp only
    split
    · exact le_max_left _ _
    · exact le_refl _
  have hlast : (clipGap query gap).lastSeq ≤ gap.lastSeq := by
    unfold clipGap
    dsimp only
    split
    · exact min_le_left _ _
    · exact le_refl _
  have hapart := h hepoch
  omega

theorem gives_visitGapPieces_beside (hrange : first ≤ last) (pieces : List Bytes)
    (hledger : ∀ piece ∈ pieces, ∀ gap,
      (let line := if piece.getLast? = some newline then piece.dropLast else piece
      if line = [] then none else codec.gapFromSlice line) = some gap →
      gap.port = port → gap.epoch = epoch → gap.lastSeq < first ∨ last < gap.firstSeq)
    {gaps : List GapRange} (hgaps : ∀ gap ∈ gaps, gap.IsBeside epoch first last) :
    Gives (visitGapPieces codec (fun gaps gap =>
        if concernsQuery port epoch query gap then pushGapBounded gaps (clipGap query gap)
        else .ok gaps) pieces gaps) fun result =>
      ∀ gap ∈ result, gap.IsBeside epoch first last := by
  induction pieces generalizing gaps with
  | nil =>
      unfold visitGapPieces
      apply gives_any.bind
      intro _ _
      exact gives_pure hgaps
  | cons piece pieces ih =>
      have hrest := fun other hother => hledger other (List.mem_cons_of_mem piece hother)
      have hhere := hledger piece List.mem_cons_self
      unfold visitGapPieces
      apply gives_any.bind
      intro _ _
      apply gives_any.bind
      intro _ _
      apply gives_ite
      · exact fun _ => gives_throw
      intro _
      dsimp only at hhere ⊢
      generalize (if (if piece.getLast? = some newline then piece.dropLast else piece) = [] then none
        else codec.gapFromSlice
          (if piece.getLast? = some newline then piece.dropLast else piece)) = found at hhere ⊢
      apply Gives.bind (gives_lift fun next hnext => hnext)
      intro next hnext
      refine ih hrest ?_
      cases found with
      | none =>
          cases hnext
          exact hgaps
      | some gap =>
          dsimp only at hnext
          split_ifs at hnext with hconcerns
          · simp only [concernsQuery, Bool.and_eq_true, decide_eq_true_eq] at hconcerns
            obtain ⟨⟨⟨hport, hepoch⟩, -⟩, -⟩ := hconcerns
            exact beside_pushGapBounded hrange hgaps
              (beside_clipGap fun _ => hhere gap rfl hport hepoch) hnext
          · cases hnext
            exact hgaps

theorem Stores.gives_loadQueryGapRanges (h : Stores codec disk port epoch first last range)
    (hrange : first ≤ last) :
    Gives (loadQueryGapRanges codec disk port epoch query) fun gaps =>
      ∀ gap ∈ gaps, gap.IsBeside epoch first last := by
  unfold loadQueryGapRanges visitGapLedger
  have hledger := h.ledger
  unfold ledgerGaps at hledger
  cases hlookup : disk.lookup gapLedgerPath with
  | none =>
      apply Gives.bind (gives_pure (P := fun gaps => gaps = []) rfl)
      rintro gaps rfl
      apply gives_ite
      · exact fun _ => gives_throw
      · intro _
        apply gives_pure
        intro gap hgap
        cases hgap
  | some ledger =>
      rw [hlookup] at hledger
      apply (gives_visitGapPieces_beside hrange (ledgerPieces ledger) ?_ (by simp)).bind
      · intro gaps hgaps
        apply gives_ite
        · exact fun _ => gives_throw
        · intro _
          exact gives_pure (beside_mergeGapRanges hrange hgaps)
      · intro piece hpiece gap hgap
        exact hledger gap (List.mem_filterMap.2 ⟨piece, hpiece, hgap⟩)

/-! ## The first number which is there -/

theorem AtMost.mono {low high : ℕ} {seq : Option ℕ} (h : AtMost low seq) (hle : low ≤ high) :
    AtMost high seq := by
  obtain ⟨found, hfound, hbound⟩ := h
  exact ⟨found, hfound, hbound.trans hle⟩

/-- A record shows that its number and all behind it may be there. -/
theorem Chronicle.gives_discoverSegments (h : Chronicle codec disk port epoch)
    (hplain : query.IsPlain epoch afterSeq throughSeq) {event : TimelineEvent}
    (hevent : event ∈ epochRecords codec disk port epoch) :
    Gives (discoverSegmentsForQuery codec disk port query) fun discovery =>
      discovery.descriptors = querySegments codec disk port query ∧
        AtMost event.seq discovery.firstAvailableSeq := by
  refine Gives.and (gives_discoverSegmentsForQuery query) ?_
  obtain ⟨segment, hsegment, hrecord⟩ := List.mem_flatMap.1 hevent
  obtain ⟨path, hpath, hfound⟩ := mem_epochSegments.1 hsegment
  obtain ⟨rfl, -⟩ := segmentAt_path hfound
  obtain ⟨hfile, hkind⟩ := List.mem_filter.1 hpath
  obtain ⟨hpaths, -, -, hnamed⟩ := foldl_addCandidate hplain.needsSearchSeed_eq
    (filesIn disk (.epoch port epoch)) { paths := [], seed := none, firstAvailableSeq := none }
  unfold discoverSegmentsForQuery discoverEpochSegmentsForQuery
  rw [hplain.epoch]
  dsimp only
  apply (gives_listCandidates query _ _).bind
  rintro candidates rfl
  apply gives_ite
  · exact fun _ => gives_throw
  intro _
  apply (gives_describeCandidates epoch _).bind
  rintro descriptors rfl
  apply gives_pure
  dsimp only
  cases hname : namedFirst segment.path with
  | some firstSeq =>
      have hle : firstSeq ≤ event.seq := by
        refine h.named segment hsegment event hrecord firstSeq ?_
        unfold namedFirst at hname
        split at hname
        next range hrange =>
          split_ifs at hrange
          cases hname
          exact parseSegmentFirstSeq_of_range hrange
        next => exact hname
      exact ((hnamed segment.path hfile hkind firstSeq hname).foldl_segments _).mono hle
  | none =>
      have hmay : query.mayFind segment.path = true := by
        unfold namedFirst at hname
        unfold EventQuery.mayFind
        split at hname
        next => cases hname
        next hrange => rw [hrange, hname]
      refine (atMost_foldl_of_mem (List.mem_filterMap.2 ⟨segment.path, ?_, hfound⟩)).mono
        (h.headed segment hsegment event hrecord)
      rw [hpaths]
      refine List.mem_append_left _ (List.mem_append_right _ (List.mem_filter.2 ⟨hfile, ?_⟩))
      rw [hkind, hmay]
      rfl

/-! ## The answer -/

theorem reached_start (hbehind : IsBehind first last afterSeq behind)
    (hplain : query.IsPlain epoch afterSeq throughSeq) {gaps : List GapRange}
    (hgaps : ∀ gap ∈ gaps, gap.IsBeside epoch first last) :
    (Scan.start query gaps).Reached epoch first last afterSeq behind afterSeq where
  lastScannedSeq := hplain.afterSeq
  contiguous := hplain.floor_eq
  events := by
    symm
    rw [Scan.start, List.filter_eq_nil_iff]
    intro event hevent
    have hafter := hbehind.after event hevent
    simp only [decide_eq_true_eq]
    omega
  after := le_refl _
  place hlt := absurd hlt (lt_irrefl _)
  gaps := hgaps

/-- How the scan of a stored range ends. -/
theorem Stores.ended {gaps : List GapRange} {scan : Scan}
    (h : Stores codec disk port epoch first last range)
    (hvisits : Visits codec search
      (scanStops codec disk search (scannedSegments codec disk port search.query))
      (Scan.start search.query gaps) scan)
    (hnumbers : range.map TimelineEvent.seq = List.range' first (last + 1 - first))
    (hplain : search.query.IsPlain epoch afterSeq throughSeq) (hfilter : search.filter = .none)
    (hword : throughSeq ≤ u64Max) (hstart : first ≤ afterSeq + 1) (hbefore : afterSeq < last)
    (hlast : last ≤ throughSeq) (hgaps : ∀ gap ∈ gaps, gap.IsBeside epoch first last) :
    ∃ cut beyond, scan.lastScannedSeq = some cut ∧
      scan.events = range.filter (fun event => afterSeq < event.seq ∧ event.seq ≤ cut) ++ beyond ∧
      (∀ event ∈ beyond, last < event.seq) ∧ (beyond = [] ↔ cut ≤ last) ∧ afterSeq < cut ∧
      cut ≤ throughSeq ∧ (cut < last → scan.truncated = true) ∧
      ∀ gap ∈ scan.gaps, gap.IsBeside epoch first last := by
  have hbehind := @Stores.isBehind _ _ _ _ search _ _ _ _ _ h hnumbers hplain hstart hbefore hlast
  obtain ⟨cut, hended⟩ := ended_of_visits hvisits hbehind hplain hfilter hword hlast
    (reached_start hbehind hplain hgaps) (h.ahead hplain)
  have hrange := @Stores.behind_range _ _ _ _ search _ _ _ _ _ h hnumbers hplain hstart hlast cut
  obtain ⟨final, hfinal, hseq⟩ := hended.place
  refine ⟨cut, (recordsBehind codec disk search (scannedSegments codec disk port search.query)
    afterSeq throughSeq).filter fun event => min cut last < event.seq ∧ event.seq ≤ cut,
    hended.lastScannedSeq, ?_, ?_, ?_, hended.moves, ?_, hended.goesOn, hended.gaps⟩
  · rw [hended.events, ← hrange,
      SortedStretches.filter_append_filter hbehind.increasing (min_le_left cut last)]
  · intro event hevent
    have hbetween := of_decide_eq_true (List.mem_filter.1 hevent).2
    omega
  · constructor
    · intro hnone
      by_contra hpast
      have hmem := List.filter_eq_nil_iff.1 hnone final hfinal
      simp only [decide_eq_true_eq] at hmem
      omega
    · intro hle
      rw [List.filter_eq_nil_iff]
      intro event _
      simp only [decide_eq_true_eq]
      omega
  · have hbound := of_decide_eq_true (List.mem_filter.1 hfinal).2
    omega

theorem leadingGap_eq (hplain : query.IsPlain epoch afterSeq throughSeq) {firstSeq : ℕ}
    (hfirst : firstSeq ≤ afterSeq + 1) (hword : afterSeq < u64Max) (gaps : List GapRange) :
    leadingGap query (some epoch) (some firstSeq) gaps = .ok gaps := by
  have hadd : satAdd u64Max afterSeq 1 = afterSeq + 1 := satAdd_eq_add hword
  unfold leadingGap
  rw [hplain.afterSeq]
  dsimp only
  rw [hadd, if_neg (by omega)]

/-- A query behind a cursor inside of a stored range answers with the next stretch of it. -/
theorem Stores.gives_queryFiles (h : Stores codec disk port epoch first last range)
    (hnumbers : range.map TimelineEvent.seq = List.range' first (last + 1 - first))
    (hplain : query.IsPlain epoch afterSeq throughSeq) (hword : throughSeq ≤ u64Max)
    (hstart : first ≤ afterSeq + 1) (hbefore : afterSeq < last) (hlast : last ≤ throughSeq) :
    Gives (queryFiles codec engine disk port query) fun response =>
      ∃ cut beyond, IsStretch epoch first last afterSeq throughSeq range response cut beyond := by
  obtain ⟨event, hevent, hseq⟩ := exists_of_numbers hnumbers (le_refl first) (by omega)
  unfold queryFiles
  apply gives_any.bind
  intro _ _
  apply Gives.bind (gives_lift fun filter hfilter => hfilter)
  intro filter hfilter
  apply (h.gives_discoverSegments hplain (h.stored event hevent)).bind
  rintro discovery ⟨hdiscovery, found, hfound, hle⟩
  have hselect : selectEpoch codec disk port query discovery.descriptors =
      return some epoch := by
    unfold selectEpoch
    rw [hplain.epoch]
    rfl
  rw [hselect]
  apply Gives.bind (gives_pure (P := fun selected => selected = some epoch) rfl)
  rintro _ rfl
  dsimp only
  apply (h.gives_loadQueryGapRanges (by omega)).bind
  intro gaps hgaps
  have hsegments : scanOrder (some epoch) discovery.descriptors =
      scannedSegments codec disk port query := by
    unfold scannedSegments queryEpoch
    rw [hdiscovery, hplain.epoch]
    rfl
  rw [hsegments]
  apply (gives_scanSegments_visits _).bind
  intro scan hvisits
  obtain ⟨cut, beyond, hscanned, hevents, hpast, hends, hmoves, hwithin, hgoesOn, hbeside⟩ :=
    h.ended hvisits hnumbers hplain
      (Except.ok.inj (hfilter.symm.trans (hplain.textFilter_eq engine))) hword hstart hbefore hlast
      hgaps
  have havailable : firstAvailable discovery (scannedSegments codec disk port query) =
      some found := by
    unfold firstAvailable
    rw [hfound]
    rfl
  rw [havailable, leadingGap_eq hplain (by omega) (by omega)]
  apply Gives.bind (gives_lift fun merged hmerged => (Except.ok.inj hmerged).symm)
  rintro _ rfl
  apply gives_ite
  · exact fun _ => gives_throw
  intro _
  apply gives_pure
  refine ⟨cut, beyond, ?_, hevents, hpast, hends, hmoves, hwithin, hgoesOn, ?_,
    beside_mergeGapRanges (by omega) hbeside⟩
  · dsimp only
    rw [hscanned]
    rfl
  · intro firstSeq hfirstSeq
    obtain rfl := Option.some.inj hfirstSeq
    omega

end

end SerialPlatform.Journal
