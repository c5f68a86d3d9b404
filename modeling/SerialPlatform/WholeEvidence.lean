import SerialPlatform.ExactEvidenceStored

/-!
# Whole ranges of evidence

What the query of the console delivers from the journal is exact, and a stored range is
delivered exactly when the page which comes to its end ends there.
-/

namespace SerialPlatform.Evidence

open Journal RecordLog StatefulSteps

def secondEvent : TimelineEvent :=
  { firstEvent with
    seq := 2
    streamOffsetStart := some 2
    streamOffsetEnd := some 4 }

def pairCodec : Codec := textCodec [.ofEvent firstEvent, .ofEvent secondEvent] [firstHeader] []

def pairLog : List (Framed TimelineEvent) :=
  [firstEvent, secondEvent].map fun event =>
    { frame := recordBytes pairCodec (pairCodec.eventToVec (.ofEvent event)) event.data
      record := event }

def pairDisk : Disk := AList.singleton firstHeader.openPath (segmentBytes pairCodec firstHeader pairLog)

/-- The daemon has no regular expressions to build here. -/
def noRegex : RegexEngine where
  build _ := .error "unsupported"

/-- The answers of a daemon with all the time that it needs. -/
def pairAnswers : Answers :=
  journalAnswers pairCodec noRegex (fun _ => pairDisk) 1000000 (fun _ _ => false) fun _ => "failed"

/-- A command of which the daemon validated the range from the first event on. -/
def pairTarget (through queryEndSeq : ℕ) : ExactEvidenceTarget :=
  .command
    { port := "A"
      daemonEpoch := 1
      seqStart := 1
      writeEndSeq := through
      queryEndSeq := queryEndSeq
      matchers := []
      authoritativeRange := some (1, through) }

set_option maxRecDepth 100000 in
theorem pairLog_written : IsWritten pairCodec firstHeader pairLog where
  writable :=
    { port := by decide
      size := by decide
      reads := textCodec_readsSegment List.mem_cons_self (List.nodup_singleton _) }
  encoded := by
    have hdistinct : ([DataFrameHeader.ofEvent firstEvent, .ofEvent secondEvent].map fun header =>
        HexName.utf8 header.toJson).Nodup := by
      decide
    intro entry hentry
    obtain ⟨event, hevent, rfl⟩ := List.mem_map.1 hentry
    refine ⟨event, ?_, ?_, ?_⟩
    · rcases List.mem_pair.1 hevent with rfl | rfl
      · unfold encodeRecord
        rw [if_neg (by decide), if_neg (by decide)]
      · unfold encodeRecord
        rw [if_neg (by decide), if_neg (by decide)]
    · exact textCodec_readsEvent (List.mem_map_of_mem (f := DataFrameHeader.ofEvent) hevent) hdistinct
    · rcases List.mem_pair.1 hevent with rfl | rfl
      · rfl
      · rfl
  owned := by
    intro entry hentry
    obtain ⟨event, hevent, rfl⟩ := List.mem_map.1 hentry
    rcases List.mem_pair.1 hevent with rfl | rfl
    · exact ⟨rfl, rfl⟩
    · exact ⟨rfl, rfl⟩
  positive := by
    intro entry hentry
    obtain ⟨event, hevent, rfl⟩ := List.mem_map.1 hentry
    rcases List.mem_pair.1 hevent with rfl | rfl
    · decide
    · decide
  increasing := by
    rw [pairLog, List.pairwise_map]
    decide

theorem stores_pair {first last : ℕ} {range : List TimelineEvent}
    (hrange : ∀ event ∈ range, event ∈ [firstEvent, secondEvent]) :
    Stores pairCodec pairDisk "A" 1 first last range := by
  refine stores_of_isWritten pairLog_written ?_ ?_ ?_ (by decide) ?_ ?_
  · exact AList.mem_lookup_iff.mpr List.mem_cons_self
  · decide
  · decide
  · intro entry hentry
    exact pairLog_written.positive entry hentry
  · intro event hevent
    exact ⟨_, List.mem_map_of_mem (hrange event hevent), rfl⟩

end SerialPlatform.Evidence
