import SerialPlatform.JournalWriter

/-!
# Opening the journal

`JournalManager::open` first cuts the ledger and every unfinished segment back to
what is complete in them, and then starts the writer from the files which it finds.
-/

namespace SerialPlatform.Journal

open FallibleState RecordLog

/-! ## Unfinished segments -/

/-- The records which recovery keeps, with their sizes. -/
def keptRecords (header : SegmentHeader) :
    ℕ → List (TimelineEvent × ℕ) → List (TimelineEvent × ℕ)
  | _, [] => []
  | previous, (event, size) :: rest =>
      if event.port = header.port ∧ event.daemonEpoch = header.daemonEpoch ∧
          previous < event.seq then
        (event, size) :: keptRecords header event.seq rest
      else []

def recoverOpenSegment (codec : Codec) (path : Path) : WriterM Unit := do
  let machine ← get
  match machine.disk.lookup path with
  | none => throw (.io "No such file or directory (os error 2)")
  | some bytes =>
      attempt
      let (header, dataOffset) ← liftExcept (readSegmentHeader codec path bytes)
      let kept := keptRecords header 0 (segmentContents codec bytes dataOffset).records
      let lastGoodOffset := dataOffset + (kept.map Prod.snd).sum
      attempt
      modifyDisk fun disk => disk.insert path (bytes.take lastGoodOffset)
      attempt
      attempt
      match kept.getLast? with
      | none => modifyDisk fun disk => disk.erase path
      | some (event, _) =>
          modifyDisk fun disk => disk.rename path (sealedPath path header event.seq)

def recoverEach (codec : Codec) : List Path → WriterM Unit
  | [] => return ()
  | path :: rest => do
      recoverOpenSegment codec path
      recoverEach codec rest

/-- Whether `collect_files` reports a file as an open segment. -/
def isUnfinished (path : Path) : Bool := path.isOpen && !isHistoryMetadata path

def recoverOpenSegments (codec : Codec) : WriterM Unit := do
  attempt
  let machine ← get
  recoverEach codec (machine.disk.select isUnfinished)

def recoverGapLedger (codec : Codec) : WriterM Unit := do
  let machine ← get
  match machine.disk.lookup gapLedgerPath with
  | none => return ()
  | some ledger =>
      attempt
      modifyDisk fun disk => disk.insert gapLedgerPath (recoveredLedger codec ledger)
      attempt

/-! ## The writer's first state -/

def raiseHead (heads : AList (fun _ : StreamKey => ℕ)) (segment : SegmentDescriptor) :
    AList (fun _ : StreamKey => ℕ) :=
  match segment.lastSeq with
  | none => heads
  | some lastSeq =>
      let key : StreamKey := { port := segment.header.port, epoch := segment.header.daemonEpoch }
      heads.insert key (match heads.lookup key with
        | some head => max head lastSeq
        | none => lastSeq)

/-- `HumanHistory::open`, where `fromSlice` is `serde_json::from_slice`. -/
def openHistory (fromSlice : String → Option HumanHistory.Persisted) (disk : Disk) :
    Except JournalError HumanHistory :=
  let opened := match disk.lookup humanHistoryPath with
    | none => HumanHistory.openFile fromSlice none
    | some bytes =>
        match String.fromUTF8? ⟨bytes.toArray⟩ with
        | some text => HumanHistory.openFile fromSlice (some text)
        | none => .error "invalid history JSON"
  match opened with
  | .ok history => .ok history
  | .error message => .error (.io message)

def initializeWriter (codec : Codec) (fromSlice : String → Option HumanHistory.Persisted)
    (config : JournalConfig) (moment : Moment) : WriterM Unit := do
  attempt
  let machine ← get
  let segments ← liftExcept (discoverSegments codec machine.disk)
  attempt
  let history ← liftExcept (openHistory fromSlice machine.disk)
  modifyWriter fun _ =>
    { config := config
      humanHistory := history
      openSegments := ∅
      heads := segments.foldl raiseHead ∅
      totalBytes := directorySize machine.disk
      retentionRetryAt := none
      retentionFailures := 0 }
  ensureCapacity codec moment 0

/-- `JournalManager::open`. -/
def openManager (codec : Codec) (fromSlice : String → Option HumanHistory.Persisted)
    (config : JournalConfig) (moment : Moment) : WriterM Unit := do
  liftExcept config.validate
  liftExcept config.validateRoot
  attempt
  recoverGapLedger codec
  recoverOpenSegments codec
  initializeWriter codec fromSlice config moment

/-- The machine before the writer has been started. -/
def Machine.beside (disk : Disk) (config : JournalConfig) : Machine where
  writer :=
    { config := config
      humanHistory := { file := none, data := .default, warning := none }
      openSegments := ∅
      heads := ∅
      totalBytes := 0
      retentionRetryAt := none
      retentionFailures := 0 }
  disk := disk
  outcomes := []
  ledgerWrites := []

end SerialPlatform.Journal
