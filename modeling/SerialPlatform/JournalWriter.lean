import SerialPlatform.FallibleState
import SerialPlatform.HumanHistory
import SerialPlatform.JournalLedger

/-!
# The journal's writer

The thread which owns the open segments.  A request runs against the disk and meets
whatever the file system answers: the answers to the single operations are given
with the request, so that every failure at every step is one of its runs.
-/

namespace SerialPlatform.Journal

/-- The journal's limits.  `retentionTarget` is the low watermark in bytes, the floor
of `max_total_bytes` times `cleanup_low_watermark`. -/
structure JournalConfig where
  rootDirEmpty : Bool
  queueCapacity : ℕ
  maxSegmentBytes : ℕ
  maxSegmentAge : ℕ
  maxTotalBytes : ℕ
  watermarkInRange : Bool
  retentionTarget : ℕ
  ackTimeout : ℕ

def JournalConfig.validate (config : JournalConfig) : Except JournalError Unit :=
  if config.queueCapacity = 0 then
    .error (.invalidConfig "queue_capacity must be greater than zero")
  else if config.ackTimeout = 0 then
    .error (.invalidConfig "ack_timeout must be greater than zero")
  else if config.maxSegmentBytes = 0 then
    .error (.invalidConfig "max_segment_bytes must be greater than zero")
  else if config.maxSegmentAge = 0 then
    .error (.invalidConfig "max_segment_age must be greater than zero")
  else if config.maxTotalBytes = 0 then
    .error (.invalidConfig "max_total_bytes must be greater than zero")
  else if !config.watermarkInRange then
    .error (.invalidConfig "cleanup_low_watermark must be in (0, 1]")
  else .ok ()

def JournalConfig.validateRoot (config : JournalConfig) : Except JournalError Unit :=
  if config.rootDirEmpty then .error (.invalidConfig "journal root directory cannot be empty") else .ok ()

/-! ## What the file system answers -/

/-- The creation of a segment file; a failure can leave the beginning of its header. -/
inductive Creation where
  | created
  | failed (left : Option ℕ) (message : String)
  deriving DecidableEq

/-- The write of a record; a failure is rolled back or leaves some of its bytes. -/
inductive RecordWrite where
  | written
  | rolledBack (message : String)
  | poisoned (kept : ℕ) (measured : Bool) (appendError rollbackError : String)
  deriving DecidableEq

/-- An append to the gap ledger; a failure comes after `progress` changes, of which the
removal of a torn tail is the first and each byte of the new line one more. -/
inductive LedgerWrite where
  | appended
  | failed (progress : ℕ) (message : String)
  deriving DecidableEq

/-- What one request reads from its surroundings. -/
structure Moment where
  wallTimeNs : ℤ
  instant : ℕ
  segmentId : Uuid
  creation : Creation
  recordWrite : RecordWrite
  historyFault : Option WriteFault

/-! ## State -/

structure StreamKey where
  port : String
  epoch : Uuid
  deriving DecidableEq

structure OpenSegment where
  header : SegmentHeader
  path : Path
  bytesWritten : ℕ
  lastSeq : ℕ
  openedAt : ℕ

structure SegmentDescriptor where
  header : SegmentHeader
  path : Path
  lastSeq : Option ℕ
  isSealed : Bool

structure WriterState where
  config : JournalConfig
  humanHistory : HumanHistory
  openSegments : AList (fun _ : StreamKey => OpenSegment)
  heads : AList (fun _ : StreamKey => ℕ)
  totalBytes : ℕ
  retentionRetryAt : Option ℕ
  retentionFailures : ℕ

/-- The writer, the disk and the answers which are still to come: to the operations
which either happen or fail, and to the appends to the gap ledger. -/
structure Machine where
  writer : WriterState
  disk : Disk
  outcomes : List (Option String)
  ledgerWrites : List LedgerWrite

abbrev WriterM := ExceptT JournalError (StateM Machine)

/-- What the next operation reports, if it fails. -/
def nextOutcome : WriterM (Option String) := do
  let machine ← get
  modify fun machine => { machine with outcomes := machine.outcomes.tail }
  return machine.outcomes.headD none

/-- An operation whose failure is passed on. -/
def attempt : WriterM Unit := do
  match ← nextOutcome with
  | none => return ()
  | some message => throw (.io message)

def nextLedgerWrite : WriterM LedgerWrite := do
  let machine ← get
  modify fun machine => { machine with ledgerWrites := machine.ledgerWrites.tail }
  return machine.ledgerWrites.headD .appended

def liftExcept {α : Type} (result : Except JournalError α) : WriterM α :=
  match result with
  | .ok value => return value
  | .error error => throw error

def modifyWriter (f : WriterState → WriterState) : WriterM Unit :=
  modify fun machine => { machine with writer := f machine.writer }

def modifyDisk (f : Disk → Disk) : WriterM Unit :=
  modify fun machine => { machine with disk := f machine.disk }

def setTotal (totalBytes : ℕ) : WriterM Unit :=
  modifyWriter fun writer => { writer with totalBytes := totalBytes }

/-! ## Sizes and descriptors -/

/-- Whether `directory_size` counts a file. -/
def isCounted (path : Path) : Bool := !isHistoryMetadata path

/-- `directory_size`, with its saturating sum. -/
def directorySize (disk : Disk) : ℕ := min (disk.size isCounted) u64Max

/-- Whether a file below the slots is a segment. -/
def isSegment (path : Path) : Bool :=
  (path.isSealed || path.isOpen) &&
    match path.directory with
    | .slot _ => true
    | .epoch _ _ => true
    | _ => false

/-- `scan_last_seq` on the bytes behind the segment header. -/
def scanLastSeq (header : SegmentHeader) (contents : RecordLog.Contents TimelineEvent) :
    Option ℕ :=
  ((contents.values.takeWhile fun event =>
    event.port = header.port ∧ event.daemonEpoch = header.daemonEpoch).getLast?).map
      TimelineEvent.seq

def segmentContents (codec : Codec) (bytes : Bytes) (dataOffset : ℕ) :
    RecordLog.Contents TimelineEvent :=
  RecordLog.scan (readRecord codec) (bytes.drop dataOffset)

def describeSegment (codec : Codec) (path : Path) (bytes : Bytes) :
    Except JournalError SegmentDescriptor := do
  let (header, dataOffset) ← readSegmentHeader codec path bytes
  let scanned := scanLastSeq header (segmentContents codec bytes dataOffset)
  return { header := header
           path := path
           lastSeq := if path.isSealed then (parseSealedLastSeq path).or scanned else scanned
           isSealed := path.isSealed }

/-- `discover_segments` over all ports. -/
def discoverSegments (codec : Codec) (disk : Disk) : Except JournalError (List SegmentDescriptor) :=
  (disk.entries.filter fun file => isSegment file.1).mapM fun file =>
    describeSegment codec file.1 file.2

/-! ## Gaps -/

/-- `append_gap_ledger` and the accounting of `record_gap`. -/
def recordGap (codec : Codec) (gap : StoredGap) : WriterM Unit := do
  let machine ← get
  let old := (machine.disk.lookup gapLedgerPath).getD []
  let whole := recoveredLedger codec old
  let line := gapLine codec gap
  match ← nextLedgerWrite with
  | .appended =>
      modifyDisk fun disk => disk.insert gapLedgerPath (whole ++ line)
      setTotal (satAdd u64Max (machine.writer.totalBytes - (old.length - whole.length)) line.length)
  | .failed progress message =>
      let written := if whole.length < old.length then progress - 1 else progress
      modifyDisk fun disk =>
        if progress = 0 then disk else disk.insert gapLedgerPath (whole ++ line.take written)
      throw (.io message)

/-! ## Retention -/

/-- The order in which retention deletes. -/
def olderSegment (a b : SegmentDescriptor) : Prop :=
  a.header.createdWallTimeNs < b.header.createdWallTimeNs ∨
    (a.header.createdWallTimeNs = b.header.createdWallTimeNs ∧
      a.header.firstSeq ≤ b.header.firstSeq)

instance : DecidableRel olderSegment := fun _ _ => inferInstanceAs (Decidable (_ ∨ _))

/-- Whether the usage is at the watermark and leaves room for `additional` bytes. -/
def WriterState.isRelieved (writer : WriterState) (additional : ℕ) : Bool :=
  writer.totalBytes ≤ writer.config.retentionTarget &&
    satAdd u64Max writer.totalBytes additional ≤ writer.config.maxTotalBytes

/-- The deletion loop; it returns the failures. -/
def deleteSegments (codec : Codec) (moment : Moment) (additional : ℕ) :
    List SegmentDescriptor → List String → WriterM (List String)
  | [], failures => return failures
  | segment :: rest, failures => do
      let machine ← get
      if machine.writer.isRelieved additional then return failures
      else
        match segment.lastSeq, machine.disk.lookup segment.path with
        | some lastSeq, some bytes =>
            attempt
            match ← nextOutcome with
            | none =>
                modifyDisk fun disk => disk.erase segment.path
                setTotal (machine.writer.totalBytes - bytes.length)
                recordGap codec
                  { port := segment.header.port
                    epoch := segment.header.daemonEpoch
                    firstSeq := segment.header.firstSeq
                    lastSeq := lastSeq
                    reason := .retention
                    recordedWallTimeNs := moment.wallTimeNs }
                deleteSegments codec moment additional rest failures
            | some message => deleteSegments codec moment additional rest (failures ++ [message])
        | _, _ => deleteSegments codec moment additional rest failures

def measure : WriterM Unit := do
  attempt
  let machine ← get
  setTotal (directorySize machine.disk)

def enforceRetention (codec : Codec) (moment : Moment) (additional : ℕ) : WriterM Unit := do
  measure
  let machine ← get
  if satAdd u64Max machine.writer.totalBytes additional ≤ machine.writer.config.maxTotalBytes then
    return ()
  else
    attempt
    let segments ← liftExcept (discoverSegments codec machine.disk)
    let sealedSegments :=
      (segments.filter SegmentDescriptor.isSealed).insertionSort olderSegment
    let failures ← deleteSegments codec moment additional sealedSegments []
    measure
    let machine ← get
    if failures = [] ∧ machine.writer.isRelieved additional then return ()
    else
      throw (.retentionFailed (satAdd u64Max machine.writer.totalBytes additional)
        machine.writer.config.retentionTarget
        (if failures = [] then "insufficient sealed segments are available for cleanup"
          else String.intercalate "; " failures))

/-- Nanoseconds in a second. -/
def secondNs : ℕ := 1000000000

/-- The pause after the given number of failed retention passes. -/
def retentionDelay (failures : ℕ) : ℕ := min (2 ^ min (failures - 1) 6) 60 * secondNs

def resetRetention : WriterM Unit :=
  modifyWriter fun writer => { writer with retentionRetryAt := none, retentionFailures := 0 }

/-- Runs a computation, and hands its error over to `recover`. -/
def catching {α : Type} (m : WriterM α) (recover : JournalError → WriterM α) : WriterM α :=
  ExceptT.mk (m.run >>= fun
    | .ok value => pure (.ok value)
    | .error error => (recover error).run)

def ensureCapacity (codec : Codec) (moment : Moment) (additional : ℕ) : WriterM Unit := do
  let machine ← get
  let projected := satAdd u64Max machine.writer.totalBytes additional
  if projected ≤ machine.writer.config.maxTotalBytes then resetRetention
  else
    let waiting := machine.writer.retentionRetryAt.filter fun retryAt => moment.instant < retryAt
    match waiting with
    | some retryAt =>
        throw (.retentionBackoff projected machine.writer.config.maxTotalBytes
          (max (min ((retryAt - moment.instant) / 1000000) u64Max) 1))
    | none =>
        catching (do enforceRetention codec moment additional; resetRetention) fun error => do
          modifyWriter fun writer =>
            let failures := satAdd (2 ^ 32 - 1) writer.retentionFailures 1
            { writer with
              retentionFailures := failures
              retentionRetryAt := some (moment.instant + retentionDelay failures) }
          throw error

/-! ## Segments -/

def SegmentHeader.forEvent (moment : Moment) (event : TimelineEvent) : SegmentHeader where
  port := event.port
  daemonEpoch := event.daemonEpoch
  segmentId := moment.segmentId
  createdWallTimeNs := moment.wallTimeNs
  firstSeq := event.seq

def SegmentHeader.openPath (header : SegmentHeader) : Path where
  directory := .epoch header.port header.daemonEpoch
  name := openName header.firstSeq header.segmentId

/-- `sealed_path`: the sealed name in the directory of the open file. -/
def sealedPath (openPath : Path) (header : SegmentHeader) (lastSeq : ℕ) : Path where
  directory := openPath.directory
  name := sealedName header.firstSeq lastSeq header.segmentId

def OpenSegment.shouldRotate (segment : OpenSegment) (config : JournalConfig) (moment : Moment)
    (nextRecordBytes : ℕ) : Bool :=
  segment.lastSeq ≠ 0 &&
    (config.maxSegmentBytes < satAdd u64Max segment.bytesWritten nextRecordBytes ||
      config.maxSegmentAge ≤ moment.instant - segment.openedAt)

/-- `OpenSegment::create_with_header`. -/
def createWithHeader (codec : Codec) (moment : Moment) (header : SegmentHeader) :
    WriterM OpenSegment := do
  let machine ← get
  let bytes := segmentHeaderBytes codec header
  if (machine.disk.lookup header.openPath).isSome then throw (.io "File exists (os error 17)")
  else
    match moment.creation with
    | .created =>
        modifyDisk fun disk => disk.insert header.openPath bytes
        return { header := header
                 path := header.openPath
                 bytesWritten := bytes.length
                 lastSeq := 0
                 openedAt := moment.instant }
    | .failed none message => throw (.io message)
    | .failed (some left) message =>
        modifyDisk fun disk => disk.insert header.openPath (bytes.take left)
        throw (.io message)

/-- `OpenSegment::seal`. -/
def sealSegment (segment : OpenSegment) : WriterM Unit := do
  if segment.lastSeq = 0 then
    attempt
    modifyDisk fun disk => disk.erase segment.path
    throw (.corrupt segment.path "cannot seal an empty segment")
  else
    attempt
    attempt
    modifyDisk fun disk =>
      disk.rename segment.path (sealedPath segment.path segment.header segment.lastSeq)

def rotate (key : StreamKey) : WriterM Unit := do
  let machine ← get
  match machine.writer.openSegments.lookup key with
  | none => return ()
  | some segment =>
      modifyWriter fun writer => { writer with openSegments := writer.openSegments.erase key }
      sealSegment segment

/-! ## Append -/

def TimelineEvent.streamKey (event : TimelineEvent) : StreamKey where
  port := event.port
  epoch := event.daemonEpoch

def WriterState.head (writer : WriterState) (key : StreamKey) : ℕ := (writer.heads.lookup key).getD 0

/-- The checks before anything is written. -/
def checkSequence (event : TimelineEvent) : WriterM Unit := do
  liftExcept (validatePort event.port)
  if event.seq = 0 then
    throw (.nonMonotonicSequence event.port event.daemonEpoch 0 0)
  else
    let machine ← get
    let previous := machine.writer.head (TimelineEvent.streamKey event)
    if event.seq ≤ previous then
      throw (.nonMonotonicSequence event.port event.daemonEpoch previous event.seq)
    else return ()

/-- A jump in the sequence is entered in the ledger before the event is written. -/
def recordJump (codec : Codec) (moment : Moment) (event : TimelineEvent) : WriterM Unit := do
  let machine ← get
  let previous := machine.writer.head (TimelineEvent.streamKey event)
  if satAdd u64Max previous 1 < event.seq then
    recordGap codec
      { port := event.port
        epoch := event.daemonEpoch
        firstSeq := satAdd u64Max previous 1
        lastSeq := event.seq - 1
        reason := .loggingFault
        recordedWallTimeNs := moment.wallTimeNs }
  else return ()

def rotateWhenFull (moment : Moment) (key : StreamKey) (recordLen : ℕ) : WriterM Unit := do
  let machine ← get
  if (machine.writer.openSegments.lookup key).any
      (OpenSegment.shouldRotate · machine.writer.config moment recordLen) then
    rotate key
  else return ()

/-- The open segment of the event's stream, with room for the record: rotation, then
retention, then the creation of a new segment where none is open. -/
def prepareSegment (codec : Codec) (moment : Moment) (event : TimelineEvent) (recordLen : ℕ) :
    WriterM OpenSegment := do
  let key := TimelineEvent.streamKey event
  rotateWhenFull moment key recordLen
  let machine ← get
  match machine.writer.openSegments.lookup key with
  | some segment =>
      ensureCapacity codec moment (satAdd u64Max recordLen 0)
      return segment
  | none =>
      let header := SegmentHeader.forEvent moment event
      let headerBytes ← liftExcept (segmentHeaderEncodedLen codec header)
      ensureCapacity codec moment (satAdd u64Max recordLen headerBytes)
      let segment ← createWithHeader codec moment header
      modifyWriter fun writer =>
        { writer with
          totalBytes := satAdd u64Max writer.totalBytes segment.bytesWritten
          openSegments := writer.openSegments.insert key segment }
      return segment

/-- The write of the record.  The segment leaves the writable set, and comes back unless
the write failed and could not be rolled back. -/
def writeRecord (moment : Moment) (event : TimelineEvent) (record : Bytes)
    (segment : OpenSegment) : WriterM Unit := do
  let key := TimelineEvent.streamKey event
  let machine ← get
  let old := (machine.disk.lookup segment.path).getD []
  match moment.recordWrite with
  | .written =>
      modifyDisk fun disk => disk.insert segment.path (old ++ record)
      modifyWriter fun writer =>
        { writer with
          totalBytes := satAdd u64Max writer.totalBytes record.length
          openSegments := writer.openSegments.insert key
            { segment with
              bytesWritten := satAdd u64Max segment.bytesWritten record.length
              lastSeq := event.seq }
          heads := writer.heads.insert key event.seq }
  | .rolledBack message => throw (.io message)
  | .poisoned kept measured appendError rollbackError =>
      let left := old ++ record.take kept
      modifyDisk fun disk => disk.insert segment.path left
      modifyWriter fun writer =>
        { writer with
          totalBytes := if measured then
              satAdd u64Max (writer.totalBytes - segment.bytesWritten) left.length
            else writer.totalBytes
          openSegments := writer.openSegments.erase key }
      throw (.segmentPoisoned segment.path appendError rollbackError)

/-- `HumanHistory::record` on the journal's worker. -/
def recordHuman (moment : Moment) (event : TimelineEvent) : WriterM Unit := do
  let machine ← get
  let recorded := machine.writer.humanHistory.record event moment.historyFault
  modifyWriter fun writer => { writer with humanHistory := recorded.2 }
  modifyDisk fun disk =>
    match recorded.2.file with
    | some text => disk.insert humanHistoryPath (HexName.utf8 text)
    | none => disk
  match recorded.1 with
  | .ok () => return ()
  | .error message => throw (.io message)

/-- `WriterState::append`. -/
def append (codec : Codec) (moment : Moment) (event : TimelineEvent) : WriterM TimelineEvent := do
  checkSequence event
  recordJump codec moment event
  let durable := { event with durable := true }
  let record ← liftExcept (encodeRecord codec durable)
  let segment ← prepareSegment codec moment durable record.length
  writeRecord moment durable record segment
  recordHuman moment durable
  return durable

/-! ## Flush and shutdown -/

def flushAll : WriterM Unit := attempt

/-- `finish`: every segment is sealed, and the first error is the one reported. -/
def sealAll : List (Sigma fun _ : StreamKey => OpenSegment) → Option JournalError →
    WriterM (Option JournalError)
  | [], first => return first
  | entry :: rest, first => do
      let error ← catching (do sealSegment entry.2; return none) fun error => return some error
      sealAll rest (first.or error)

def finish (codec : Codec) (moment : Moment) : WriterM Unit := do
  let machine ← get
  modifyWriter fun writer => { writer with openSegments := ∅ }
  let first ← sealAll machine.writer.openSegments.entries none
  let last ← catching (do enforceRetention codec moment 0; return none) fun error =>
    return some error
  match first.or last with
  | some error => throw error
  | none => return ()

end SerialPlatform.Journal
