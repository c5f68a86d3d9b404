import SerialPlatform.JournalQuery
import Mathlib.Data.List.Destutter

/-!
# Exact evidence

The console reads the exact events of an incident or of a command from the journal, page by
page.  The query delivers either the whole range or the reason why it cannot.
-/

namespace SerialPlatform.Evidence

open Journal

def exactEvidencePageEvents : ℕ := 5000

def exactEvidencePageBytes : ℕ := 1024 * 1024

def exactEvidenceMaxEvents : ℕ := 20000

def exactEvidenceMaxBytes : ℕ := 4 * 1024 * 1024

def exactEvidenceHttpQueryLimit : ℕ := 8

/-! ## Targets -/

structure IncidentEvidenceTarget where
  port : String
  daemonEpoch : Uuid
  seqStart : ℕ
  seqEnd : ℕ

structure CommandEvidenceTarget where
  port : String
  daemonEpoch : Uuid
  seqStart : ℕ
  writeEndSeq : ℕ
  queryEndSeq : ℕ
  matchers : List CommandCaptureMatcher
  /-- the range which the daemon validated; `none` is legacy history -/
  authoritativeRange : Option (ℕ × ℕ)

inductive ExactEvidenceTarget where
  | incident (target : IncidentEvidenceTarget)
  | command (target : CommandEvidenceTarget)

namespace ExactEvidenceTarget

def port : ExactEvidenceTarget → String
  | .incident target => target.port
  | .command target => target.port

def daemonEpoch : ExactEvidenceTarget → Uuid
  | .incident target => target.daemonEpoch
  | .command target => target.daemonEpoch

def seqStart : ExactEvidenceTarget → ℕ
  | .incident target => target.seqStart
  | .command target => target.seqStart

def queryEndSeq : ExactEvidenceTarget → ℕ
  | .incident target => target.seqEnd
  | .command target => target.queryEndSeq

end ExactEvidenceTarget

inductive ExactEvidenceFailure where
  | gap (gap : GapRange)
  | incomplete
  | limitExceeded
  | queryFailed (message : String)

structure ExactEvidenceResponse where
  target : ExactEvidenceTarget
  events : List TimelineEvent

/-! ## Completion -/

/-- The event belongs to the port and the epoch. -/
def isOf (port : String) (daemonEpoch : Uuid) (event : TimelineEvent) : Bool :=
  event.port = port && event.daemonEpoch = daemonEpoch

/-- `exact_evidence_is_complete`. -/
def exactEvidenceIsComplete (port : String) (daemonEpoch : Uuid) (seqStart seqEnd : ℕ)
    (events : List TimelineEvent) : Bool :=
  if seqStart = 0 ∨ seqEnd < seqStart then
    false
  else
    match events.head?, events.getLast? with
    | some first, some last =>
        isOf port daemonEpoch first && first.seq = seqStart &&
          (isOf port daemonEpoch last && last.seq = seqEnd) &&
          (events.zip events.tail).all fun pair =>
            isOf port daemonEpoch pair.1 && isOf port daemonEpoch pair.2 &&
              pair.1.seq + 1 = pair.2.seq
    | _, _ => false

/-- `command_evidence_end_seq`; the captures of legacy history are reconstructed from the
rows of the display. -/
def commandEvidenceEndSeq (reconstruct : CommandEvidenceTarget → List TimelineEvent → Option ℕ)
    (target : CommandEvidenceTarget) (events : List TimelineEvent) : Option ℕ :=
  match target.authoritativeRange with
  | some (_, throughSeq) =>
      if exactEvidenceIsComplete target.port target.daemonEpoch target.seqStart throughSeq events
      then some throughSeq else none
  | none =>
      if target.matchers = [] then
        if exactEvidenceIsComplete target.port target.daemonEpoch target.seqStart
          target.writeEndSeq events
        then some target.writeEndSeq else none
      else
        reconstruct target events

def completedThrough (reconstruct : CommandEvidenceTarget → List TimelineEvent → Option ℕ)
    (target : ExactEvidenceTarget) (events : List TimelineEvent) : Option ℕ :=
  match target with
  | .incident target =>
      if exactEvidenceIsComplete target.port target.daemonEpoch target.seqStart target.seqEnd events
      then some target.seqEnd else none
  | .command target => commandEvidenceEndSeq reconstruct target events

/-- The hole in front of the first event which does not continue the sequence. -/
def holeFrom (expected : ℕ) : List TimelineEvent → Except (ℕ × ℕ) ℕ
  | [] => .ok expected
  | event :: rest =>
      if expected < event.seq then .error (expected, event.seq - 1)
      else holeFrom (satAdd u64Max event.seq 1) rest

/-- `first_exact_evidence_gap`. -/
def firstExactEvidenceGap (target : ExactEvidenceTarget) (throughSeq : ℕ)
    (events : List TimelineEvent) : Option GapRange :=
  let hole (firstSeq lastSeq : ℕ) : GapRange :=
    { epoch := target.daemonEpoch
      firstSeq := firstSeq
      lastSeq := lastSeq
      reason := .sequenceDiscontinuity }
  match holeFrom target.seqStart (events.takeWhile fun event => event.seq ≤ throughSeq) with
  | .error (firstSeq, lastSeq) => some (hole firstSeq lastSeq)
  | .ok expected => if expected ≤ throughSeq then some (hole expected throughSeq) else none

/-! ## Pages -/

/-- What the pages brought so far. -/
structure Gathered where
  events : List TimelineEvent
  reportedGaps : List GapRange
  dataBytes : ℕ

def exactEvidenceQuery (target : ExactEvidenceTarget) (afterSeq : ℕ) : EventQuery where
  epoch := some target.daemonEpoch
  afterSeq := some afterSeq
  throughSeq := some target.queryEndSeq
  beforeWallTimeNs := none
  afterWallTimeNs := none
  direction := none
  kind := none
  actorId := none
  runId := none
  operationId := none
  contains := none
  regex := none
  limitEvents := some exactEvidencePageEvents
  limitBytes := some exactEvidencePageBytes

/-- The gap which a receive-gap event stands for. -/
def gapOfEvent (target : ExactEvidenceTarget) (event : TimelineEvent) : GapRange where
  epoch := target.daemonEpoch
  firstSeq := event.seq
  lastSeq := event.seq
  reason :=
    match event.metadata.lookup "reason" with
    | some (.str "epoch_changed") => .epochChanged
    | some (.str "ring_evicted") => .ringEvicted
    | some (.str "retention") => .retention
    | some (.str "corruption") => .corruption
    | some (.str "logging_fault") => .loggingFault
    | _ => .sequenceDiscontinuity

/-- An event which the page must not bring. -/
def isForeign (target : ExactEvidenceTarget) (afterSeq : ℕ) (event : TimelineEvent) : Bool :=
  event.port ≠ target.port || event.daemonEpoch ≠ target.daemonEpoch ||
    event.seq ≤ afterSeq || event.seq < target.seqStart || target.queryEndSeq < event.seq

def Gathered.addEvent (target : ExactEvidenceTarget) (gathered : Gathered)
    (event : TimelineEvent) : Gathered where
  events := gathered.events ++ [event]
  reportedGaps := gathered.reportedGaps ++
    if event.kind = .gap then [gapOfEvent target event] else []
  dataBytes := satAdd u64Max gathered.dataBytes event.data.length

def Gathered.addEvents (target : ExactEvidenceTarget) (afterSeq : ℕ) :
    List TimelineEvent → Gathered → Except ExactEvidenceFailure Gathered
  | [], gathered => .ok gathered
  | event :: rest, gathered =>
      if isForeign target afterSeq event then .error .incomplete
      else addEvents target afterSeq rest (gathered.addEvent target event)

/-- A reported gap concerns the range of the query. -/
def concernsTarget (target : ExactEvidenceTarget) (gap : GapRange) : Bool :=
  gap.epoch = target.daemonEpoch && gap.firstSeq ≤ target.queryEndSeq &&
    target.seqStart ≤ gap.lastSeq

/-- `sort_by_key` and `dedup_by_key`. -/
def sortEvents (events : List TimelineEvent) : List TimelineEvent :=
  (events.insertionSort fun a b => a.seq ≤ b.seq).destutter fun a b => a.seq ≠ b.seq

/-- Retention has not reached the range. -/
def checkAvailable (target : ExactEvidenceTarget) (page : EventQueryResponse) :
    Except ExactEvidenceFailure Unit :=
  match page.firstAvailableSeq with
  | some firstAvailable =>
      if target.seqStart < firstAvailable then
        .error (.gap
          { epoch := target.daemonEpoch
            firstSeq := target.seqStart
            lastSeq := min (firstAvailable - 1) target.queryEndSeq
            reason := .retention })
      else .ok ()
  | none => .ok ()

def Gathered.checkLimits (gathered : Gathered) : Except ExactEvidenceFailure Unit :=
  if exactEvidenceMaxEvents < gathered.events.length ∨
      exactEvidenceMaxBytes < gathered.dataBytes then
    .error .limitExceeded
  else .ok ()

def Gathered.addPage (target : ExactEvidenceTarget) (afterSeq : ℕ) (page : EventQueryResponse)
    (gathered : Gathered) : Except ExactEvidenceFailure Gathered := do
  let gathered := { gathered with
    reportedGaps := gathered.reportedGaps ++ page.gaps.filter (concernsTarget target) }
  checkAvailable target page
  let added ← gathered.addEvents target afterSeq page.events
  let sorted := { added with events := sortEvents added.events }
  sorted.checkLimits
  return sorted

/-- The whole range is there, unless a gap crosses it. -/
def Gathered.deliver (target : ExactEvidenceTarget) (through : ℕ) (gathered : Gathered) :
    Except ExactEvidenceFailure ExactEvidenceResponse :=
  match gathered.reportedGaps.find? fun gap =>
      gap.firstSeq ≤ through && target.seqStart ≤ gap.lastSeq with
  | some gap => .error (.gap gap)
  | none =>
      if exactEvidenceIsComplete target.port target.daemonEpoch target.seqStart through
          (gathered.events.takeWhile fun event => event.seq ≤ through) then
        .ok
          { target := target
            events := gathered.events.filter fun event => event.seq ≤ through }
      else
        .error (.gap ((firstExactEvidenceGap target through gathered.events).getD
          { epoch := target.daemonEpoch
            firstSeq := target.seqStart
            lastSeq := through
            reason := .sequenceDiscontinuity }))

def Gathered.giveUp (gathered : Gathered) : ExactEvidenceFailure :=
  match gathered.reportedGaps.head? with
  | some gap => .gap gap
  | none => .incomplete

/-- Where the next page begins. -/
def nextAfterSeq (target : ExactEvidenceTarget) (afterSeq : ℕ) (page : EventQueryResponse) :
    Option ℕ :=
  match page.nextCursor with
  | some cursor =>
      if cursor.epoch = target.daemonEpoch ∧ afterSeq < cursor.afterSeq ∧
          cursor.afterSeq < target.queryEndSeq ∧ page.truncated = true then
        some cursor.afterSeq
      else none
  | none => none

/-- What the daemon answers to each request of the query. -/
abbrev Answers := ℕ → String → EventQuery → Except String EventQueryResponse

section

variable (reconstruct : CommandEvidenceTarget → List TimelineEvent → Option ℕ)
  (answers : Answers) (target : ExactEvidenceTarget)

/-- The loop, with the requests which are left. -/
def queryPages : ℕ → ℕ → ℕ → Gathered → Except ExactEvidenceFailure ExactEvidenceResponse
  | 0, _, _, _ => .error .limitExceeded
  | requests + 1, index, afterSeq, gathered =>
      match answers index target.port (exactEvidenceQuery target afterSeq) with
      | .error message => .error (.queryFailed message)
      | .ok page =>
          match gathered.addPage target afterSeq page with
          | .error failure => .error failure
          | .ok gathered =>
              match completedThrough reconstruct target gathered.events with
              | some through => gathered.deliver target through
              | none =>
                  match nextAfterSeq target afterSeq page with
                  | some next => queryPages requests (index + 1) next gathered
                  | none => .error gathered.giveUp

/-- `execute_exact_evidence_query`. -/
def executeExactEvidenceQuery : Except ExactEvidenceFailure ExactEvidenceResponse :=
  if target.seqStart = 0 ∨ target.queryEndSeq < target.seqStart then
    .error .incomplete
  else
    queryPages reconstruct answers target exactEvidenceHttpQueryLimit 0 (target.seqStart - 1)
      { events := [], reportedGaps := [], dataBytes := 0 }

end

end SerialPlatform.Evidence
