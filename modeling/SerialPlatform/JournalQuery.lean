import SerialPlatform.JournalGapRanges
import SerialPlatform.JournalTextSearch
import SerialPlatform.JournalWriter

/-!
# Historical queries

A query selects the segments of one epoch, scans their records in order and stops at its
limits.  It runs beside the writer: the disk is whatever it is at that moment, and
the clock, which bounds the scan, may say at any reading that the time is up.
-/

namespace SerialPlatform.Journal

open RecordLog (Tail Contents)

def defaultQueryEvents : ℕ := 1000

def maxQueryEvents : ℕ := 10000

def defaultQueryBytes : ℕ := 1024 * 1024

def maxQueryBytes : ℕ := 16 * 1024 * 1024

def maxQuerySegments : ℕ := 16384

def maxRegexBytes : ℕ := 4096

structure EventQuery where
  epoch : Option Uuid
  afterSeq : Option ℕ
  throughSeq : Option ℕ
  beforeWallTimeNs : Option ℤ
  afterWallTimeNs : Option ℤ
  direction : Option Direction
  kind : Option EventKind
  actorId : Option String
  runId : Option Uuid
  operationId : Option Uuid
  contains : Option String
  regex : Option String
  limitEvents : Option ℕ
  limitBytes : Option ℕ

structure EventQueryResponse where
  events : List TimelineEvent
  nextCursor : Option Cursor
  truncated : Bool
  firstAvailableSeq : Option ℕ
  gaps : List GapRange

/-! ## The budget -/

/-- The bytes scanned so far and what the clock says at each reading: whether the time
for the scan is up. -/
structure QueryBudget where
  maxScanBytes : ℕ
  isLate : ℕ → Bool
  scannedBytes : ℕ
  readings : ℕ

def QueryBudget.new (maxScanBytes : ℕ) (isLate : ℕ → Bool) : QueryBudget where
  maxScanBytes := maxScanBytes
  isLate := isLate
  scannedBytes := 0
  readings := 0

abbrev QueryM := StateT QueryBudget (Except JournalError)

/-- `QueryBudget::exhausted`. -/
def exhausted : QueryM Bool := fun budget =>
  .ok (budget.maxScanBytes ≤ budget.scannedBytes || budget.isLate budget.readings,
    { budget with readings := budget.readings + 1 })

def addBytes (bytes : ℕ) : QueryM Unit := fun budget =>
  .ok ((), { budget with scannedBytes := satAdd u64Max budget.scannedBytes bytes })

def outOfBudget {α : Type} (phase : String) : QueryM α := fun budget =>
  .error (.queryBudgetExceeded phase budget.scannedBytes)

def ensureAvailable (phase : String) : QueryM Unit := do
  if ← exhausted then outOfBudget phase else return ()

def charge (bytes : ℕ) (phase : String) : QueryM Unit := do
  addBytes bytes
  ensureAvailable phase

/-! ## The ledger -/

/-- The loop of `visit_gap_ledger` over the lines which can be read. -/
def visitGapPieces {σ : Type} (codec : Codec) (visit : σ → StoredGap → Except JournalError σ) :
    List Bytes → σ → QueryM σ
  | [], state => do
      ensureAvailable "gap ledger"
      return state
  | piece :: pieces, state => do
      ensureAvailable "gap ledger"
      charge piece.length "gap ledger"
      if maxGapLedgerLineBytes < piece.length then
        throw (.corrupt gapLedgerPath "gap ledger line exceeds size limit")
      else
        let line := if piece.getLast? = some newline then piece.dropLast else piece
        let gap := if line = [] then none else codec.gapFromSlice line
        let state ← ((match gap with
          | some gap => visit state gap
          | none => .ok state) : Except JournalError σ)
        visitGapPieces codec visit pieces state

def visitGapLedger {σ : Type} (codec : Codec) (disk : Disk)
    (visit : σ → StoredGap → Except JournalError σ) (state : σ) : QueryM σ :=
  match disk.lookup gapLedgerPath with
  | none => return state
  | some ledger => visitGapPieces codec visit (ledgerPieces ledger) state

/-- The gap of a port which was recorded last. -/
def laterGap (port : String) (latest : Option (ℤ ×ₗ ℕ)) (gap : StoredGap) : Option (ℤ ×ₗ ℕ) :=
  if gap.port = port then
    let candidate : ℤ ×ₗ ℕ := toLex (gap.recordedWallTimeNs, gap.epoch)
    match latest with
    | none => some candidate
    | some current => if current < candidate then some candidate else some current
  else latest

/-- `find_latest_gap_epoch`. -/
def findLatestGapEpoch (codec : Codec) (disk : Disk) (port : String) : QueryM (Option Uuid) := do
  let latest ← visitGapLedger codec disk (fun latest gap => .ok (laterGap port latest gap)) none
  return latest.map fun latest => (ofLex latest).2

/-- A stored gap clipped to the range of the query. -/
def clipGap (query : EventQuery) (gap : StoredGap) : GapRange where
  epoch := gap.epoch
  firstSeq := match query.afterSeq with
    | some after => max gap.firstSeq (satAdd u64Max after 1)
    | none => gap.firstSeq
  lastSeq := match query.throughSeq with
    | some through => min gap.lastSeq through
    | none => gap.lastSeq
  reason := gap.reason

def concernsQuery (port : String) (epoch : Uuid) (query : EventQuery) (gap : StoredGap) : Bool :=
  gap.port = port && gap.epoch = epoch && query.afterSeq.all (· < gap.lastSeq) &&
    query.throughSeq.all (gap.firstSeq ≤ ·)

/-- `load_query_gap_ranges`. -/
def loadQueryGapRanges (codec : Codec) (disk : Disk) (port : String) (epoch : Uuid)
    (query : EventQuery) : QueryM (List GapRange) := do
  let gaps ← visitGapLedger codec disk (fun gaps gap =>
    if concernsQuery port epoch query gap then pushGapBounded gaps (clipGap query gap)
    else .ok gaps) []
  let merged := mergeGapRanges gaps
  if maxQueryGaps < merged.length then throw (.tooManyQueryGaps maxQueryGaps)
  else return merged

/-! ## The segments of a query -/

structure Discovery where
  descriptors : List SegmentDescriptor
  firstAvailableSeq : Option ℕ

/-- `scan_last_seq_for_query`. -/
def scanLastSeqForQuery (path : Path) (header : SegmentHeader) (tailBytes : ℕ) :
    List (TimelineEvent × ℕ) → Option ℕ → QueryM (Option ℕ)
  | [], last => do
      ensureAvailable "segment discovery"
      charge tailBytes "segment discovery"
      return last
  | (event, size) :: rest, _ => do
      ensureAvailable "segment discovery"
      charge size "segment discovery"
      if event.port = header.port ∧ event.daemonEpoch = header.daemonEpoch then
        scanLastSeqForQuery path header tailBytes rest (some event.seq)
      else throw (.corrupt path "record identity does not match segment")

def minSeq (current : Option ℕ) (seq : ℕ) : Option ℕ :=
  some (match current with
    | some current => min current seq
    | none => seq)

/-- What the names of an epoch's files give: the candidates, the seed of a text search
and the first sequence number which is there. -/
structure Candidates where
  paths : List Path
  seed : Option (ℕ × ℕ × Path)
  firstAvailableSeq : Option ℕ

def EventQuery.floor (query : EventQuery) : ℕ := query.afterSeq.getD 0

def EventQuery.ceiling (query : EventQuery) : ℕ := query.throughSeq.getD u64Max

def EventQuery.needsSearchSeed (query : EventQuery) : Bool :=
  query.contains.isSome || query.regex.isSome

/-- Whether a seed is replaced by a file with the given last and first sequence number. -/
def betterSeed (seed : Option (ℕ × ℕ × Path)) (lastSeq firstSeq : ℕ) : Bool :=
  match seed with
  | none => true
  | some (seedLast, seedFirst, _) => seedLast < lastSeq || (seedLast = lastSeq && seedFirst < firstSeq)

/-- One file of the epoch's directory. -/
def addCandidate (query : EventQuery) (candidates : Candidates) (path : Path) : Candidates :=
  if path.isSealed || path.isOpen then
    let range := if path.isSealed then parseSealedSeqRange path else none
    match range, parseSegmentFirstSeq path with
    | some (firstSeq, lastSeq), _ =>
        let candidates :=
          { candidates with firstAvailableSeq := minSeq candidates.firstAvailableSeq firstSeq }
        if query.ceiling < firstSeq then candidates
        else if lastSeq ≤ query.floor then
          if query.needsSearchSeed && betterSeed candidates.seed lastSeq firstSeq then
            { candidates with seed := some (lastSeq, firstSeq, path) }
          else candidates
        else { candidates with paths := candidates.paths ++ [path] }
    | none, some firstSeq =>
        let candidates :=
          { candidates with firstAvailableSeq := minSeq candidates.firstAvailableSeq firstSeq }
        if query.ceiling < firstSeq then candidates
        else { candidates with paths := candidates.paths ++ [path] }
    | none, none => { candidates with paths := candidates.paths ++ [path] }
  else candidates

def listCandidates (query : EventQuery) : List Path → Candidates → QueryM Candidates
  | [], candidates => return candidates
  | path :: paths, candidates => do
      ensureAvailable "segment discovery"
      listCandidates query paths (addCandidate query candidates path)

/-- The last sequence number which the name of a sealed segment gives, where it agrees
with the header. -/
def namedLastSeq (path : Path) (header : SegmentHeader) : Option ℕ :=
  ((parseSealedSeqRange path).filter fun range =>
    range.1 = header.firstSeq ∧ range.1 ≤ range.2).map Prod.snd

def describeCandidate (codec : Codec) (disk : Disk) (port : String) (epoch : Uuid) (path : Path) :
    QueryM (Option SegmentDescriptor) := do
  ensureAvailable "segment discovery"
  match disk.lookup path with
  | none => return none
  | some bytes =>
      let (header, dataOffset) ← (readSegmentHeader codec path bytes :
        Except JournalError (SegmentHeader × ℕ))
      charge dataOffset "segment discovery"
      if header.port ≠ port ∨ header.daemonEpoch ≠ epoch then
        throw (.corrupt path "segment is stored under the wrong slot or epoch directory")
      else
        let contents := segmentContents codec bytes dataOffset
        let named := if path.isSealed then namedLastSeq path header else none
        let lastSeq ← (match named with
          | some lastSeq => return some lastSeq
          | none => scanLastSeqForQuery path header contents.tailBytes contents.records none)
        return some
          { header := header
            path := path
            lastSeq := lastSeq
            isSealed := path.isSealed }

def describeCandidates (codec : Codec) (disk : Disk) (port : String) (epoch : Uuid) :
    List Path → QueryM (List SegmentDescriptor)
  | [] => return []
  | path :: paths => do
      let described ← describeCandidate codec disk port epoch path
      let rest ← describeCandidates codec disk port epoch paths
      return (match described with
        | some descriptor => descriptor :: rest
        | none => rest)

/-- The files of one directory, in the order in which it lists them. -/
def filesIn (disk : Disk) (directory : Directory) : List Path :=
  disk.keys.filter fun path => path.directory = directory

/-- `discover_epoch_segments_for_query`. -/
def discoverEpochSegmentsForQuery (codec : Codec) (disk : Disk) (port : String) (epoch : Uuid)
    (query : EventQuery) : QueryM Discovery := do
  let candidates ← listCandidates query (filesIn disk (.epoch port epoch))
    { paths := [], seed := none, firstAvailableSeq := none }
  let paths := candidates.paths ++ (candidates.seed.map fun seed => seed.2.2).toList
  if maxQuerySegments < paths.length then throw (.tooManyQuerySegments maxQuerySegments)
  else
    let descriptors ← describeCandidates codec disk port epoch paths
    return { descriptors := descriptors
             firstAvailableSeq := descriptors.foldl (fun first segment =>
               minSeq first segment.header.firstSeq) candidates.firstAvailableSeq }

/-- One file below the slot's directory, where no epoch is named. -/
def describeSlotFile (codec : Codec) (disk : Disk) (port : String)
    (found : List SegmentDescriptor) (path : Path) : QueryM (List SegmentDescriptor) := do
  ensureAvailable "segment discovery"
  if path.isSealed || path.isOpen then
    if maxQuerySegments ≤ found.length then throw (.tooManyQuerySegments maxQuerySegments)
    else
      match disk.lookup path with
      | none => return found
      | some bytes =>
          let (header, dataOffset) ← (readSegmentHeader codec path bytes :
            Except JournalError (SegmentHeader × ℕ))
          charge dataOffset "segment discovery"
          if header.port ≠ port then
            throw (.corrupt path "segment is stored under the wrong slot directory")
          else
            let contents := segmentContents codec bytes dataOffset
            let named := if path.isSealed then parseSealedLastSeq path else none
            let lastSeq ← (match named with
              | some lastSeq => return some lastSeq
              | none => scanLastSeqForQuery path header contents.tailBytes contents.records none)
            return found ++
              [{ header := header
                 path := path
                 lastSeq := lastSeq
                 isSealed := path.isSealed }]
  else return found

/-- The directories below a slot's which hold files. -/
def directoriesBelow (disk : Disk) (port : String) : List Directory :=
  .slot port :: ((disk.keys.map Path.directory).filter fun directory =>
    directory.isBelowSlot port && directory ≠ .slot port).dedup

def discoverDirectories (codec : Codec) (disk : Disk) (port : String) :
    List Directory → ℕ → List SegmentDescriptor → QueryM (List SegmentDescriptor)
  | [], _, found => return found
  | directory :: rest, count, found => do
      ensureAvailable "segment discovery"
      if maxQuerySegments * 2 < count + 1 then throw (.tooManyQuerySegments maxQuerySegments)
      else
        let found ← (filesIn disk directory).foldlM (describeSlotFile codec disk port) found
        discoverDirectories codec disk port rest (count + 1) found

/-- `discover_segments_for_query`. -/
def discoverSegmentsForQuery (codec : Codec) (disk : Disk) (port : String) (query : EventQuery) :
    QueryM Discovery :=
  match query.epoch with
  | some epoch => discoverEpochSegmentsForQuery codec disk port epoch query
  | none =>
      if disk.keys.all fun path => !path.directory.isBelowSlot port then
        return { descriptors := [], firstAvailableSeq := none }
      else do
        let descriptors ← discoverDirectories codec disk port (directoriesBelow disk port) 0 []
        return { descriptors := descriptors, firstAvailableSeq := none }

/-! ## The scan -/

/-- What a query looks for in one epoch. -/
structure Search where
  port : String
  query : EventQuery
  filter : TextFilter
  limitEvents : ℕ
  limitBytes : ℕ
  seed : Option Uuid

structure Scan where
  gaps : List GapRange
  events : List TimelineEvent
  bytes : ℕ
  truncated : Bool
  lastScannedSeq : Option ℕ
  carries : Carries
  previousScannedSeq : Option ℕ
  previousContiguousSeq : ℕ

/-- Whether the loop over the records goes on. -/
inductive Control where
  | next
  | stop
  deriving DecidableEq

def cursorProgressed (lastScanned afterSeq : Option ℕ) : Bool :=
  match lastScanned, afterSeq with
  | some last, some after => after < last
  | some _, none => true
  | none, _ => false

def eventMatchesQueryScope (event : TimelineEvent) (query : EventQuery) : Bool :=
  query.afterWallTimeNs.all (· < event.wallTimeNs) &&
    query.beforeWallTimeNs.all (event.wallTimeNs < ·) &&
    query.direction.all (event.direction = ·) && query.kind.all (event.kind = ·) &&
    query.actorId.all (fun actorId => event.actor.map Actor.id = some actorId) &&
    query.runId.all (fun runId => event.runId = some runId) &&
    query.operationId.all (fun operationId => event.operationId = some operationId)

namespace Scan

/-- The scan has come to a record. -/
def reach (scan : Scan) (seq : ℕ) : Scan :=
  { scan with lastScannedSeq := some (match scan.lastScannedSeq with
      | some last => max last seq
      | none => seq) }

def clearCarries (scan : Scan) : Scan := { scan with carries := .empty }

/-- The hole between the records behind the cursor and this one. -/
def account (scan : Scan) (search : Search) (event : TimelineEvent) : Except JournalError Scan :=
  if search.query.floor < event.seq then do
    let expected := satAdd u64Max scan.previousContiguousSeq 1
    let scan ← (if expected < event.seq then do
        let gaps ← pushUncoveredGap scan.gaps
          { epoch := event.daemonEpoch
            firstSeq := expected
            lastSeq := event.seq - 1
            reason := .sequenceDiscontinuity }
        return { scan.clearCarries with gaps := gaps }
      else return scan)
    return { scan with previousContiguousSeq := max scan.previousContiguousSeq event.seq }
  else return scan

/-- The continuity of the carried streams up to this record. -/
def follow (scan : Scan) (event : TimelineEvent) : Scan :=
  let broken := scan.previousScannedSeq.any fun previous => event.seq ≠ satAdd u64Max previous 1
  let carries := if broken || eventBreaksStream event.kind then .empty else scan.carries
  { scan with carries := carries, previousScannedSeq := some event.seq }

/-- Whether the record is in the query's scope and matches its text. -/
def observe (scan : Scan) (search : Search) (event : TimelineEvent) : Bool × Scan :=
  if eventMatchesQueryScope event search.query then
    let found := scan.carries.search search.filter event
    (found.1, { scan with carries := found.2 })
  else (false, { scan with carries := scan.carries.interrupt event.direction })

end Scan

/-- The scan stops where it is, if the cursor has moved, and fails otherwise. -/
def stopAtBudget (search : Search) (scan : Scan) : QueryM (Control × Scan) :=
  if cursorProgressed scan.lastScannedSeq search.query.afterSeq then
    return (.stop, { scan with truncated := true })
  else outOfBudget "event scan"

/-- What an event counts against the byte limit of the response. -/
def eventBytes (codec : Codec) (event : TimelineEvent) : ℕ :=
  event.data.length + (codec.eventToVec (.ofEvent event)).length

/-- A record which belongs to the response, unless that is full. -/
def collect (codec : Codec) (search : Search) (limitHit : Bool) (scan : Scan)
    (event : TimelineEvent) : Control × Scan :=
  if (search.limitEvents ≤ scan.events.length ∨
      search.limitBytes < scan.bytes + eventBytes codec event) ∧ scan.events ≠ [] then
    (.stop, { scan with truncated := true })
  else
    let scan :=
      { scan.reach event.seq with
        bytes := scan.bytes + eventBytes codec event
        events := scan.events ++ [event] }
    if limitHit then (.stop, { scan with truncated := true }) else (.next, scan)

/-- One valid record. -/
def scanRecord (codec : Codec) (search : Search) (segment : SegmentDescriptor)
    (event : TimelineEvent) (limitHit : Bool) (scan : Scan) : QueryM (Control × Scan) := do
  if event.port ≠ search.port ∨ event.daemonEpoch ≠ segment.header.daemonEpoch then
    throw (.corrupt segment.path "record identity does not match segment")
  else if search.query.ceiling < event.seq then return (.stop, scan)
  else
    let scan ← (scan.account search event : Except JournalError Scan)
    let (found, scan) := (scan.follow event).observe search event
    if search.query.afterSeq.all (· < event.seq) && found then
      return collect codec search limitHit scan event
    else
      let scan := scan.reach event.seq
      if limitHit then stopAtBudget search scan else return (.next, scan)

/-- The end of a segment's records; behind an invalid record the rest of the segment is a
gap, and an unsealed segment leaves the result open. -/
def scanTail (search : Search) (segment : SegmentDescriptor) (tail : Tail) (limitHit : Bool)
    (lastGoodSeq : Option ℕ) (scan : Scan) : QueryM (Control × Scan) := do
  match tail with
  | .eof => if limitHit then stopAtBudget search scan else return (.next, scan)
  | .invalid _ =>
      let gaps ← ((match segment.lastSeq with
        | none => .ok scan.gaps
        | some lastSeq =>
            let firstSeq := match lastGoodSeq with
              | some seq => satAdd u64Max seq 1
              | none => segment.header.firstSeq
            if firstSeq ≤ lastSeq then
              pushGapBounded scan.gaps
                { epoch := segment.header.daemonEpoch
                  firstSeq := firstSeq
                  lastSeq := lastSeq
                  reason := .corruption }
            else .ok scan.gaps) : Except JournalError (List GapRange))
      let scan :=
        { scan.clearCarries with
          gaps := gaps
          truncated := scan.truncated || !segment.isSealed }
      if limitHit then stopAtBudget search scan else return (.next, scan)

def scanRecords (codec : Codec) (search : Search) (segment : SegmentDescriptor)
    (tail : Tail) (tailBytes : ℕ) :
    List (TimelineEvent × ℕ) → Option ℕ → Scan → QueryM (Control × Scan)
  | [], lastGoodSeq, scan => do
      if ← exhausted then stopAtBudget search scan
      else
        addBytes tailBytes
        let limitHit ← exhausted
        scanTail search segment tail limitHit lastGoodSeq scan
  | (event, size) :: rest, _, scan => do
      if ← exhausted then stopAtBudget search scan
      else
        addBytes size
        let limitHit ← exhausted
        match ← scanRecord codec search segment event limitHit scan with
        | (.stop, scan) => return (.stop, scan)
        | (.next, scan) => scanRecords codec search segment tail tailBytes rest (some event.seq) scan

def SegmentDescriptor.isConsumed (segment : SegmentDescriptor) (query : EventQuery) : Bool :=
  query.afterSeq.any fun after => segment.lastSeq.any (· ≤ after)

/-- One segment file. -/
def scanSegment (codec : Codec) (disk : Disk) (search : Search) (segment : SegmentDescriptor)
    (scan : Scan) : QueryM (Control × Scan) := do
  if ← exhausted then stopAtBudget search scan
  else
    match disk.lookup segment.path with
    | none => return (.next, scan)
    | some bytes =>
        let (header, dataOffset) ← (readSegmentHeader codec segment.path bytes :
          Except JournalError (SegmentHeader × ℕ))
        addBytes dataOffset
        if ← exhausted then stopAtBudget search scan
        else if header.port ≠ search.port ∨ header.daemonEpoch ≠ segment.header.daemonEpoch then
          throw (.corrupt segment.path "segment identity changed while querying")
        else
          let contents := segmentContents codec bytes dataOffset
          scanRecords codec search segment contents.tail contents.tailBytes contents.records none
            scan

def scanSegments (codec : Codec) (disk : Disk) (search : Search) :
    List SegmentDescriptor → Scan → QueryM Scan
  | [], scan => return scan
  | segment :: rest, scan =>
      if search.query.ceiling < segment.header.firstSeq then return scan
      else if segment.isConsumed search.query && search.seed ≠ some segment.header.segmentId then
        scanSegments codec disk search rest scan
      else do
        match ← scanSegment codec disk search segment scan with
        | (.stop, scan) => return scan
        | (.next, scan) => scanSegments codec disk search rest scan

/-! ## The whole query -/

/-- The checks on a request. -/
def EventQuery.validate (query : EventQuery) : Except JournalError Unit :=
  if query.afterWallTimeNs.any fun after => query.beforeWallTimeNs.any (· ≤ after) then
    .error (.invalidConfig "after_wall_time_ns must be less than before_wall_time_ns")
  else if query.afterSeq.any fun after => query.throughSeq.any (· < after) then
    .error (.invalidConfig "after_seq must not exceed through_seq")
  else if query.contains.any fun value => 4096 < value.utf8ByteSize then
    .error (.invalidConfig "contains must not exceed 4096 UTF-8 bytes")
  else if query.contains.isSome && query.regex.isSome then
    .error (.invalidConfig "contains and regex are mutually exclusive")
  else if query.regex.any fun value => maxRegexBytes < value.utf8ByteSize then
    .error (.invalidRegex ("pattern must not exceed " ++ toString maxRegexBytes ++ " UTF-8 bytes"))
  else if query.actorId.any fun value =>
      value.isEmpty || 256 < value.utf8ByteSize || value.toList.any isControlChar then
    .error (.invalidConfig "actor_id must contain 1..=256 non-control UTF-8 bytes")
  else if query.epoch.isNone && query.afterSeq.any (0 < ·) then
    .error (.invalidConfig "epoch is required when after_seq is greater than zero")
  else .ok ()

/-- The text filter of a request. -/
def EventQuery.textFilter (query : EventQuery) (engine : RegexEngine) :
    Except JournalError TextFilter :=
  match query.contains, query.regex with
  | some needle, _ => .ok (.contains (HexName.utf8 needle))
  | none, none => .ok .none
  | none, some pattern =>
      match engine.build pattern with
      | .error message => .error (.invalidRegex message)
      | .ok expression =>
          if expression.isMatch [] then
            .error (.invalidRegex "pattern must not match an empty byte string")
          else .ok (.regex expression)

def clamp (low high value : ℕ) : ℕ := max low (min high value)

/-- The order of `max_by_key` for the latest segment. -/
def SegmentDescriptor.laterKey (segment : SegmentDescriptor) : ℤ ×ₗ ℕ ×ₗ ℕ :=
  toLex (segment.header.createdWallTimeNs,
    toLex (segment.header.firstSeq, segment.header.segmentId))

/-- The order in which the segments are scanned. -/
def SegmentDescriptor.scanKey (segment : SegmentDescriptor) : ℕ ×ₗ ℕ :=
  toLex (segment.header.firstSeq, segment.header.segmentId)

/-- The last of the elements whose key is greatest. -/
def maxByKey {α κ : Type} [LinearOrder κ] (key : α → κ) (items : List α) : Option α :=
  items.foldl (fun best item =>
    match best with
    | none => some item
    | some current => if key current ≤ key item then some item else some current) none

theorem maxByKey_isSome {α κ : Type} [LinearOrder κ] (key : α → κ) {items : List α}
    (hitems : items ≠ []) : (maxByKey key items).isSome = true := by
  have hfold : ∀ (items : List α) (best : Option α), best.isSome = true →
      (items.foldl (fun best item =>
        match best with
        | none => some item
        | some current => if key current ≤ key item then some item else some current)
        best).isSome = true := by
    intro items
    induction items with
    | nil => exact fun _ h => h
    | cons item items ih =>
        intro best hbest
        obtain ⟨current, rfl⟩ := Option.isSome_iff_exists.mp hbest
        rw [List.foldl_cons]
        apply ih
        dsimp only
        split_ifs <;> rfl
  cases items with
  | nil => exact absurd rfl hitems
  | cons item items => exact hfold items (some item) rfl

/-- The epoch in which the query is answered. -/
def selectEpoch (codec : Codec) (disk : Disk) (port : String) (query : EventQuery)
    (descriptors : List SegmentDescriptor) : QueryM (Option Uuid) :=
  match query.epoch.or
    ((maxByKey SegmentDescriptor.laterKey descriptors).map fun segment =>
      segment.header.daemonEpoch) with
  | some epoch => return some epoch
  | none => findLatestGapEpoch codec disk port

/-- The last consumed segment, in which a text which goes on behind the cursor can start. -/
def seedSegment (query : EventQuery) (descriptors : List SegmentDescriptor) : Option Uuid :=
  if query.needsSearchSeed then
    query.afterSeq.bind fun after =>
      (maxByKey
        (fun segment : SegmentDescriptor =>
          (toLex (segment.lastSeq.getD 0, segment.scanKey) : ℕ ×ₗ ℕ ×ₗ ℕ))
        (descriptors.filter fun segment => segment.lastSeq.any (· ≤ after))).map
          fun segment => segment.header.segmentId
  else none

/-- The records which retention has removed between the cursor and the first segment. -/
def leadingGap (query : EventQuery) (selectedEpoch : Option Uuid) (firstAvailableSeq : Option ℕ)
    (gaps : List GapRange) : Except JournalError (List GapRange) :=
  match selectedEpoch, query.afterSeq, firstAvailableSeq with
  | some epoch, some after, some firstAvailable =>
      let missingFirst := satAdd u64Max after 1
      let missingLast := min (firstAvailable - 1) query.ceiling
      if missingFirst < firstAvailable ∧ missingFirst ≤ missingLast then
        pushUncoveredGap gaps
          { epoch := epoch
            firstSeq := missingFirst
            lastSeq := missingLast
            reason := .retention }
      else .ok gaps
  | _, _, _ => .ok gaps

/-- The segments which are scanned, in their order. -/
def scanOrder (selectedEpoch : Option Uuid) (descriptors : List SegmentDescriptor) :
    List SegmentDescriptor :=
  (descriptors.filter fun segment => selectedEpoch = some segment.header.daemonEpoch).insertionSort
    fun a b => a.scanKey ≤ b.scanKey

def firstAvailable (discovery : Discovery) (descriptors : List SegmentDescriptor) : Option ℕ :=
  discovery.firstAvailableSeq.or
    ((descriptors.filter fun segment => segment.lastSeq.isSome).foldl
      (fun first segment => minSeq first segment.header.firstSeq) none)

/-- The scan before its first record. -/
def Scan.start (query : EventQuery) (gaps : List GapRange) : Scan where
  gaps := gaps
  events := []
  bytes := 0
  truncated := false
  lastScannedSeq := query.afterSeq
  carries := .empty
  previousScannedSeq := none
  previousContiguousSeq := query.floor

/-- `query_files_with_limits`. -/
def queryFiles (codec : Codec) (engine : RegexEngine) (disk : Disk) (port : String)
    (query : EventQuery) : QueryM EventQueryResponse := do
  (query.validate : Except JournalError Unit)
  let filter ← (query.textFilter engine : Except JournalError TextFilter)
  let discovery ← discoverSegmentsForQuery codec disk port query
  let selectedEpoch ← selectEpoch codec disk port query discovery.descriptors
  let descriptors := scanOrder selectedEpoch discovery.descriptors
  let gaps ← (match selectedEpoch with
    | some epoch => loadQueryGapRanges codec disk port epoch query
    | none => return [])
  let search : Search :=
    { port := port
      query := query
      filter := filter
      limitEvents := clamp 1 maxQueryEvents (query.limitEvents.getD defaultQueryEvents)
      limitBytes := clamp 1 maxQueryBytes (query.limitBytes.getD defaultQueryBytes)
      seed := seedSegment query descriptors }
  let scan ← scanSegments codec disk search descriptors (Scan.start query gaps)
  let firstAvailableSeq := firstAvailable discovery descriptors
  let gaps ← (leadingGap query selectedEpoch firstAvailableSeq scan.gaps :
    Except JournalError (List GapRange))
  let merged := mergeGapRanges gaps
  if maxQueryGaps < merged.length then throw (.tooManyQueryGaps maxQueryGaps)
  else
    return { events := scan.events
             nextCursor := selectedEpoch.bind fun epoch =>
               scan.lastScannedSeq.map fun seq => { epoch := epoch, afterSeq := seq }
             truncated := scan.truncated
             firstAvailableSeq := firstAvailableSeq
             gaps := merged }

/-- `JournalHandle::query` on one disk, within the given bounds. -/
def runQuery (codec : Codec) (engine : RegexEngine) (disk : Disk) (port : String)
    (query : EventQuery) (maxScanBytes : ℕ) (isLate : ℕ → Bool) :
    Except JournalError EventQueryResponse := do
  validatePort port
  let (response, _) ← (queryFiles codec engine disk port query).run
    (QueryBudget.new maxScanBytes isLate)
  return response

end SerialPlatform.Journal
