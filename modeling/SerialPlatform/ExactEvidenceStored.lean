import SerialPlatform.ExactEvidencePages
import SerialPlatform.JournalReaders
import SerialPlatform.JournalRangeQuery

/-!
# Exact evidence from the journal

The query of the console over the journal's answers, and the ranges which the journal
stores.
-/

namespace SerialPlatform.Evidence

open Journal RecordLog StatefulSteps

section

variable {codec : Codec} {engine : RegexEngine} {disks : ℕ → Disk} {maxScanBytes : ℕ}
  {isLate : ℕ → ℕ → Bool} {describe : JournalError → String}
  {target : ExactEvidenceTarget} {range : List TimelineEvent} {through : ℕ}

/-- The answers of the daemon, each from the disk as it is then. -/
def journalAnswers (codec : Codec) (engine : RegexEngine) (disks : ℕ → Disk) (maxScanBytes : ℕ)
    (isLate : ℕ → ℕ → Bool) (describe : JournalError → String) : Answers :=
  fun index port query =>
    (runQuery codec engine (disks index) port query maxScanBytes (isLate index)).mapError describe

theorem isPlain_exactEvidenceQuery (target : ExactEvidenceTarget) (afterSeq : ℕ) :
    (exactEvidenceQuery target afterSeq).IsPlain target.daemonEpoch afterSeq
      target.queryEndSeq where
  epoch := rfl
  afterSeq := rfl
  throughSeq := rfl
  scope _ := rfl
  contains := rfl
  regex := rfl

theorem isPage_of_isStretch {afterSeq cut : ℕ} {page : EventQueryResponse}
    {beyond : List TimelineEvent}
    (h : IsStretch target.daemonEpoch target.seqStart through afterSeq target.queryEndSeq range page
      cut beyond) : IsPage target through range afterSeq page cut beyond where
  cursor := h.cursor
  events := h.events
  past := h.past
  ends := h.ends
  moves := h.moves
  within := h.within
  goesOn := h.goesOn
  available := by
    unfold checkAvailable
    split
    next firstSeq hfirst => rw [if_neg (not_lt.2 (h.available firstSeq hfirst))]
    next => rfl
  gaps gap hgap hconcerns := by
    simp only [concernsTarget, Bool.and_eq_true, decide_eq_true_eq] at hconcerns
    exact h.gaps gap hgap hconcerns.1.1

/-- A journal which stores the range serves it. -/
theorem serves_of_stores (hrange : IsRange target through range)
    (hword : target.queryEndSeq ≤ u64Max)
    (hstores : ∀ index, Stores codec (disks index) target.port target.daemonEpoch target.seqStart
      through range) :
    Serves (journalAnswers codec engine disks maxScanBytes isLate describe) target through
      range := by
  intro index afterSeq page hstart hafter hanswer
  have hquery : runQuery codec engine (disks index) target.port
      (exactEvidenceQuery target afterSeq) maxScanBytes (isLate index) = .ok page := by
    unfold journalAnswers at hanswer
    cases hrun : runQuery codec engine (disks index) target.port
        (exactEvidenceQuery target afterSeq) maxScanBytes (isLate index) with
    | error message =>
        rw [hrun] at hanswer
        cases hanswer
    | ok answer =>
        rw [hrun] at hanswer
        cases hanswer
        rfl
  unfold runQuery at hquery
  obtain ⟨_, -, hquery⟩ := Except.exists_of_bind_ok hquery
  obtain ⟨⟨answer, budget⟩, hrun, hquery⟩ := Except.exists_of_bind_ok hquery
  cases hquery
  obtain ⟨cut, beyond, hstretch⟩ := ((hstores index).gives_queryFiles hrange.numbers
    (isPlain_exactEvidenceQuery target afterSeq) hword hstart hafter hrange.start.2.2).holds _ _ _
    hrun
  exact ⟨cut, beyond, isPage_of_isStretch hstretch⟩

/-- Nothing is gathered before the first page. -/
theorem filled_nothing (hrange : IsRange target through range) :
    Filled target through range (target.seqStart - 1)
      { events := [], reportedGaps := [], dataBytes := 0 } where
  events := by
    symm
    rw [List.filter_eq_nil_iff]
    intro event hevent
    have hbound := hrange.seq_mem hevent
    have hstart := hrange.start
    simp only [decide_eq_true_eq]
    omega
  bytes := rfl
  gaps gap hgap := by cases hgap

theorem from_nothing (target : ExactEvidenceTarget) : Gathered.From target []
    { events := [], reportedGaps := [], dataBytes := 0 } where
  origin event hevent := by cases hevent
  within event hevent := by cases hevent
  gaps page hpage := by cases hpage
  gapEvents event hevent := by cases hevent
  sorted := List.Pairwise.nil

end

/-! ## A segment which the writer leaves -/

section

variable {codec : Codec} {disk : Disk} {header : SegmentHeader} {log : List (Framed TimelineEvent)}
  {range : List TimelineEvent} {first last : ℕ}

theorem readSegment_of_isWritten (hwritten : IsWritten codec header log)
    (hlookup : disk.lookup header.openPath = some (segmentBytes codec header log)) :
    readSegment codec disk header.openPath =
      some { records := RecordLog.sizes log, tail := .eof, tailBytes := 0 } := by
  unfold readSegment
  rw [hlookup]
  dsimp only
  rw [segmentBytes, readSegmentHeader_append hwritten.writable]
  dsimp only
  rw [segmentContents_behind, scan_encoded hwritten.encoded]

theorem segmentAt_of_isWritten (hwritten : IsWritten codec header log)
    (hlookup : disk.lookup header.openPath = some (segmentBytes codec header log))
    {segment : SegmentDescriptor}
    (hsegment : segmentAt codec disk namedLastSeq header.openPath = some segment) :
    segment.header = header := by
  unfold segmentAt at hsegment
  rw [hlookup] at hsegment
  dsimp only at hsegment
  rw [segmentBytes, readSegmentHeader_append hwritten.writable] at hsegment
  obtain rfl := Option.some.inj hsegment
  rfl

/-- An epoch of one segment which was written stores its records. -/
theorem stores_of_isWritten (hwritten : IsWritten codec header log)
    (hlookup : disk.lookup header.openPath = some (segmentBytes codec header log))
    (hfiles : epochFiles disk header.port header.daemonEpoch = [header.openPath])
    (hledger : disk.lookup gapLedgerPath = none) (hword : header.firstSeq ≤ u64Max)
    (hfirst : ∀ entry ∈ log, header.firstSeq ≤ entry.record.seq)
    (hrange : ∀ event ∈ range, ∃ entry ∈ log, entry.record = event) :
    Stores codec disk header.port header.daemonEpoch first last range := by
  have hread := readSegment_of_isWritten hwritten hlookup
  have hvalues : (RecordLog.sizes log).map Prod.fst = log.map Framed.record := by
    simp [RecordLog.sizes]
  have hsegments : ∀ segment ∈ epochSegments codec disk header.port header.daemonEpoch,
      segment.path = header.openPath ∧ segment.header = header ∧
        segmentRecords codec disk segment = log.map Framed.record := by
    intro segment hsegment
    obtain ⟨path, hpath, hfound⟩ := mem_epochSegments.1 hsegment
    rw [hfiles, List.mem_singleton] at hpath
    subst hpath
    obtain ⟨hpath, -⟩ := segmentAt_path hfound
    refine ⟨hpath, segmentAt_of_isWritten hwritten hlookup hfound, ?_⟩
    unfold segmentRecords
    rw [hpath, hread]
    exact hvalues
  have hrecord : ∀ segment ∈ epochSegments codec disk header.port header.daemonEpoch,
      ∀ event ∈ segmentRecords codec disk segment, header.firstSeq ≤ event.seq := by
    intro segment hsegment event hevent
    rw [(hsegments segment hsegment).2.2] at hevent
    obtain ⟨entry, hentry, rfl⟩ := List.mem_map.1 hevent
    exact hfirst entry hentry
  constructor
  · constructor
    · intro segment hsegment
      rw [(hsegments segment hsegment).2.1]
    · intro segment hsegment
      rw [(hsegments segment hsegment).2.2, List.pairwise_map]
      exact hwritten.increasing
    · intro a ha b hb hne
      exact absurd ((hsegments a ha).1.trans (hsegments b hb).1.symm) hne
    · intro segment hsegment event hevent
      rw [(hsegments segment hsegment).2.1]
      exact hrecord segment hsegment event hevent
    · intro segment hsegment event hevent firstSeq hname
      rw [(hsegments segment hsegment).1, SegmentHeader.openPath,
        parseSegmentFirstSeq_openName _ _ hword] at hname
      obtain rfl := Option.some.inj hname
      exact hrecord segment hsegment event hevent
    · intro segment hsegment event _ firstSeq lastSeq hsealed
      rw [(hsegments segment hsegment).1, SegmentHeader.openPath, isSealed_openName] at hsealed
      cases hsealed
  · intro event hevent
    obtain ⟨entry, hentry, rfl⟩ := hrange event hevent
    have hfound : ∃ segment, segmentAt codec disk namedLastSeq header.openPath = some segment := by
      unfold segmentAt
      rw [hlookup]
      dsimp only
      rw [segmentBytes, readSegmentHeader_append hwritten.writable]
      exact ⟨_, rfl⟩
    obtain ⟨segment, hfound⟩ := hfound
    have hsegment : segment ∈ epochSegments codec disk header.port header.daemonEpoch :=
      mem_epochSegments.2 ⟨header.openPath, by rw [hfiles]; exact List.mem_cons_self, hfound⟩
    refine List.mem_flatMap.2 ⟨segment, hsegment, ?_⟩
    rw [(hsegments segment hsegment).2.2]
    exact List.mem_map_of_mem hentry
  · intro gap hgap
    unfold ledgerGaps at hgap
    rw [hledger] at hgap
    cases hgap
  · intro segment hsegment contents hcontents gap hgap
    rw [(hsegments segment hsegment).1, hread] at hcontents
    obtain rfl := Option.some.inj hcontents
    cases hgap

end

end SerialPlatform.Evidence
