import SerialPlatform.HexName
import SerialPlatform.OrderedMap
import SerialPlatform.Protocol

/-!
# The monitor catalog

The retained state of the monitor jobs, the bounds which the daemon checks when it
loads a state file, and the mutations which its operations make to the catalog.  A
mutation runs under the mutation lock; it either returns at once or leaves a state
which is then written to the file.
-/

namespace SerialPlatform.Monitor

/-- `STATE_SCHEMA_VERSION` -/
def stateSchemaVersion : ℕ := 2

/-- `MAX_MONITORS` -/
def maxMonitors : ℕ := 128

/-- `MAX_ACTIVE_MONITORS` -/
def maxActiveMonitors : ℕ := 64

/-- `MAX_INCIDENTS_PER_MONITOR` -/
def maxIncidentsPerMonitor : ℕ := 512

/-- `MAX_INCIDENTS_TOTAL` -/
def maxIncidentsTotal : ℕ := 1024

/-- `MAX_DESCRIPTION_BYTES` -/
def maxDescriptionBytes : ℕ := 1024

/-- `MAX_PREVIEW_BYTES` -/
def maxPreviewBytes : ℕ := 1024

/-- `MAX_DEBOUNCE_MS` -/
def maxDebounceMs : ℕ := 60000

/-- `MAX_COOLDOWN_MS` -/
def maxCooldownMs : ℕ := 24 * 60 * 60 * 1000

/-- `MAX_DURATION_MS` -/
def maxDurationMs : ℕ := 30 * 24 * 60 * 60 * 1000

/-- `MAX_MONITOR_MATCHERS` -/
def maxMonitorMatchers : ℕ := 16

/-- `MAX_MONITOR_PATTERN_BYTES` -/
def maxMonitorPatternBytes : ℕ := 4096

/-- `MAX_MONITOR_TOTAL_PATTERN_BYTES` -/
def maxMonitorTotalPatternBytes : ℕ := 16384

/-! ## Records -/

inductive MonitorMatcher
  | contains (value : String)
  | regex (value : String)
  deriving DecidableEq

def MonitorMatcher.value : MonitorMatcher → String
  | .contains value => value
  | .regex value => value

inductive MonitorSeverity
  | info
  | warning
  | error
  | critical
  deriving DecidableEq

inductive MonitorStatus
  | running
  | completed
  | stopped
  | failed
  deriving DecidableEq

structure MonitorSpec where
  port : String
  matchers : List MonitorMatcher
  startCursor : Option Cursor
  severity : MonitorSeverity
  description : Option String
  debounceMs : ℕ
  cooldownMs : ℕ
  durationMs : Option ℕ
  deriving DecidableEq

structure MonitorView where
  id : Uuid
  revision : ℕ
  spec : MonitorSpec
  status : MonitorStatus
  createdWallTimeNs : ℤ
  startedWallTimeNs : ℤ
  expiresWallTimeNs : Option ℤ
  stoppedWallTimeNs : Option ℤ
  currentCursor : Option Cursor
  incidentCount : ℕ
  unackedIncidentCount : ℕ
  gapCount : ℕ
  lastError : Option String
  deriving DecidableEq

structure MonitorMatch where
  index : ℕ
  matcher : MonitorMatcher
  deriving DecidableEq

structure MonitorIncident where
  id : Uuid
  incidentSeq : ℕ
  monitorId : Uuid
  port : String
  daemonEpoch : Uuid
  seqStart : ℕ
  seqEnd : ℕ
  wallTimeStartNs : ℤ
  wallTimeEndNs : ℤ
  severity : MonitorSeverity
  description : Option String
  found : List MonitorMatch
  preview : String
  evidenceCursor : Cursor
  evidenceRef : String
  createdWallTimeNs : ℤ
  ackedWallTimeNs : Option ℤ
  deriving DecidableEq

structure PendingIncident where
  daemonEpoch : Uuid
  seqStart : ℕ
  seqEnd : ℕ
  wallTimeStartNs : ℤ
  wallTimeEndNs : ℤ
  found : List MonitorMatch
  preview : String
  deriving DecidableEq

structure MonitorCheckpoint where
  cursor : Cursor
  cooldownUntilWallTimeNs : Option ℤ
  pending : Option PendingIncident
  deriving DecidableEq

structure PersistedState where
  schemaVersion : ℕ
  monitors : OrderedMap Uuid MonitorView
  incidents : OrderedMap Uuid (List MonitorIncident)
  checkpoints : OrderedMap Uuid MonitorCheckpoint
  deriving DecidableEq

/-- `PersistedState::default` -/
def PersistedState.default : PersistedState := ⟨stateSchemaVersion, .empty, .empty, .empty⟩

inductive MonitorError
  | notFound (id : Uuid)
  | unknownSlot (port : String)
  | requestIdReused (id : Uuid)
  | revisionMismatch (expected actual : ℕ)
  | capacity
  | activeCapacity
  | invalidSpec (text : String)
  | cursorAhead
  | invalidState (text : String)
  | io
  deriving DecidableEq

/-! ## Texts -/

/-- The characters of a text which fit into so many bytes. -/
def takeBytes : ℕ → List Char → List Char
  | _, [] => []
  | limit, character :: rest =>
      if character.utf8Size ≤ limit then character :: takeBytes (limit - character.utf8Size) rest
      else []

def truncateText (value : String) (limit : ℕ) : String :=
  if value.utf8ByteSize ≤ limit then value
  else String.ofList (takeBytes limit value.toList) ++ "…"

/-- The hyphenated form of a UUID. -/
def uuidText (id : Uuid) : String :=
  let digits := (List.range 32).map fun place => HexName.digit (id / 16 ^ (31 - place) % 16)
  String.ofList (digits.take 8 ++ '-' :: (digits.drop 8).take 4 ++ '-' :: (digits.drop 12).take 4 ++
    '-' :: (digits.drop 16).take 4 ++ '-' :: digits.drop 20)

/-! ## Checks -/

/-- The loop of `validate_spec` over the matchers, with the bytes of the earlier ones.
`regexError` is the answer of the regex engine to an expression. -/
def validateMatchers (regexError : String → Option String) :
    List MonitorMatcher → ℕ → Except MonitorError ℕ
  | [], total => .ok total
  | matcher :: rest, total =>
      if matcher.value.isEmpty ∨ maxMonitorPatternBytes < matcher.value.utf8ByteSize then
        .error (.invalidSpec
          "each matcher value must be non-empty and at most 4096 UTF-8 bytes")
      else
        let total := satAdd u64Max total matcher.value.utf8ByteSize
        match matcher with
        | .regex expression =>
            match regexError expression with
            | some text => .error (.invalidSpec text)
            | none => validateMatchers regexError rest total
        | .contains _ => validateMatchers regexError rest total

def validateSpec (regexError : String → Option String) (spec : MonitorSpec) :
    Except MonitorError Unit :=
  if spec.port.isEmpty ∨ 64 < spec.port.utf8ByteSize then .error (.invalidSpec "invalid port")
  else if spec.matchers.isEmpty ∨ maxMonitorMatchers < spec.matchers.length then
    .error (.invalidSpec
      ("matchers must contain 1-" ++ toString maxMonitorMatchers ++ " conditions"))
  else
    match validateMatchers regexError spec.matchers 0 with
    | .error error => .error error
    | .ok total =>
        if maxMonitorTotalPatternBytes < total then
          .error (.invalidSpec
            ("matcher values exceed " ++ toString maxMonitorTotalPatternBytes ++
              " total UTF-8 bytes"))
        else if ∃ value ∈ spec.description, maxDescriptionBytes < value.utf8ByteSize then
          .error (.invalidSpec "description is too large")
        else if maxDebounceMs < spec.debounceMs then
          .error (.invalidSpec "debounce_ms is too large")
        else if maxCooldownMs < spec.cooldownMs then
          .error (.invalidSpec "cooldown_ms is too large")
        else if ∃ value ∈ spec.durationMs, value = 0 ∨ maxDurationMs < value then
          .error (.invalidSpec "duration_ms is out of range")
        else .ok ()

def MonitorView.isRunning (view : MonitorView) : Bool := view.status = .running

/-- How many monitors are running. -/
def activeCount (state : PersistedState) : ℕ :=
  state.monitors.weight fun view => if view.isRunning then 1 else 0

/-- How many incidents are retained. -/
def incidentTotal (state : PersistedState) : ℕ := state.incidents.weight List.length

def validateSpecs (regexError : String → Option String) : List MonitorView → Except MonitorError Unit
  | [] => .ok ()
  | view :: rest =>
      match validateSpec regexError view.spec with
      | .error error => .error error
      | .ok () => validateSpecs regexError rest

def validateLoadedState (regexError : String → Option String) (state : PersistedState) :
    Except MonitorError Unit :=
  if state.schemaVersion ≠ stateSchemaVersion then
    .error (.invalidState ("unsupported schema version " ++ toString state.schemaVersion))
  else if maxMonitors < state.monitors.size ∨ maxActiveMonitors < activeCount state ∨
      maxIncidentsTotal < incidentTotal state ∨
      ∃ queue ∈ state.incidents.values, maxIncidentsPerMonitor < queue.length then
    .error (.invalidState "retention bound exceeded")
  else validateSpecs regexError state.monitors.values

def sameCreateSpec (existing requested : MonitorSpec) : Bool :=
  (if requested.startCursor.isNone then { existing with startCursor := none } else existing) =
    requested

/-- The start of a monitor on a slot with this daemon epoch and head. -/
def resolveStartCursor (spec : MonitorSpec) (daemonEpoch : Uuid) (headSeq : ℕ) :
    Except MonitorError Cursor :=
  match spec.startCursor with
  | none => .ok ⟨daemonEpoch, headSeq⟩
  | some cursor =>
      if cursor.epoch = daemonEpoch ∧ headSeq < cursor.afterSeq then .error .cursorAhead
      else .ok cursor

def msToNs (value : ℕ) : ℤ := min (min (value * 1000000) u64Max : ℕ) i64Max

def durationDeadline (now : ℤ) (durationMs : Option ℕ) : Option ℤ :=
  durationMs.map fun duration => satAddI64 now (msToNs duration)

/-! ## Retention -/

def MonitorIncident.isUnacked (incident : MonitorIncident) : Bool := incident.ackedWallTimeNs.isNone

def unackedIn (queue : List MonitorIncident) : ℕ := queue.countP MonitorIncident.isUnacked

/-- The first of the least elements. -/
def firstMin {α : Type} (before : α → α → Bool) : List α → Option α
  | [] => none
  | candidate :: rest =>
      some (rest.foldl (fun least next => if before next least then next else least) candidate)

def removeMonitor (id : Uuid) (state : PersistedState) : PersistedState :=
  { state with
    monitors := state.monitors.erase id
    incidents := state.incidents.erase id
    checkpoints := state.checkpoints.erase id }

/-- The order in which stopped monitors make room. -/
def prunedBefore (state : PersistedState) (a b : MonitorView) : Bool :=
  let unacked (view : MonitorView) : Bool :=
    ((state.incidents.lookup view.id).getD []).any MonitorIncident.isUnacked
  let stopped (view : MonitorView) : ℤ × ℤ :=
    match view.stoppedWallTimeNs with
    | none => (0, 0)
    | some time => (1, time)
  let key (view : MonitorView) : ℕ ×ₗ ℤ ×ₗ ℤ ×ₗ ℤ :=
    toLex ((unacked view).toNat,
      toLex ((stopped view).1, toLex ((stopped view).2, view.createdWallTimeNs)))
  key a < key b

/-- The loop of `prune_monitor_capacity`, with a bound on the monitors which it visits. -/
def pruneMonitors : ℕ → PersistedState → PersistedState
  | 0, state => state
  | fuel + 1, state =>
      if maxMonitors ≤ state.monitors.size then
        match firstMin (prunedBefore state)
            (state.monitors.values.filter fun view => !view.isRunning) with
        | none => state
        | some view => pruneMonitors fuel (removeMonitor view.id state)
      else state

def pruneMonitorCapacity (state : PersistedState) : PersistedState :=
  pruneMonitors state.monitors.size state

def markIncidentRetentionGap (id : Uuid) (message : String) (state : PersistedState) :
    PersistedState :=
  match state.monitors.lookup id with
  | none => state
  | some view =>
      { state with
        monitors := state.monitors.insert id
          { view with gapCount := satAdd u64Max view.gapCount 1, lastError := some message } }

def pruneOneMonitorIncident (id : Uuid) (state : PersistedState) : PersistedState :=
  match state.incidents.lookup id with
  | none => state
  | some [] => state
  | some (_ :: rest) =>
      markIncidentRetentionGap id
        "oldest retained Incident was pruned at the per-Monitor capacity"
        { state with incidents := state.incidents.insert id rest }

/-- Every retained incident with its queue, place and time. -/
def incidentPlaces (state : PersistedState) : List (Uuid × ℕ × ℤ) :=
  state.incidents.entries.flatMap fun entry =>
    entry.2.mapIdx fun index incident => (entry.1, index, incident.createdWallTimeNs)

def pruneOneGlobalIncident (state : PersistedState) : PersistedState :=
  match firstMin (fun a b => a.2.2 < b.2.2) (incidentPlaces state) with
  | none => state
  | some (id, index, _) =>
      match state.incidents.lookup id with
      | none => state
      | some queue =>
          markIncidentRetentionGap id
            "oldest retained Incident was pruned at the global capacity"
            { state with incidents := state.incidents.insert id (queue.eraseIdx index) }

def recomputeUnackedCounts (state : PersistedState) : PersistedState :=
  { state with
    monitors := state.monitors.mapValues fun _ view =>
      { view with
        unackedIncidentCount := ((state.incidents.lookup view.id).map unackedIn).getD 0 } }

/-! ## Mutations -/

/-- How a mutation ends: with a result, or with a state which is to be written. -/
inductive Attempt
  | returned (result : Except MonitorError Unit)
  | persisting
  deriving DecidableEq

abbrev Mutation := PersistedState → Attempt × PersistedState

/-- `slot` is the daemon epoch and the head of the port, if it is registered. -/
def create (regexError : String → Option String) (now : ℤ) (requestId : Uuid)
    (requested : MonitorSpec) (slot : Option (Uuid × ℕ)) : Mutation := fun state =>
  match validateSpec regexError requested with
  | .error error => (.returned (.error error), state)
  | .ok () =>
      match state.monitors.lookup requestId with
      | some existing =>
          if sameCreateSpec existing.spec requested then (.returned (.ok ()), state)
          else (.returned (.error (.requestIdReused requestId)), state)
      | none =>
          match slot with
          | none => (.returned (.error (.unknownSlot requested.port)), state)
          | some (daemonEpoch, headSeq) =>
              match resolveStartCursor requested daemonEpoch headSeq with
              | .error error => (.returned (.error error), state)
              | .ok cursor =>
                  if maxActiveMonitors ≤ activeCount state then
                    (.returned (.error .activeCapacity), state)
                  else
                    let monitor : MonitorView :=
                      { id := requestId
                        revision := 1
                        spec := { requested with startCursor := some cursor }
                        status := .running
                        createdWallTimeNs := now
                        startedWallTimeNs := now
                        expiresWallTimeNs := durationDeadline now requested.durationMs
                        stoppedWallTimeNs := none
                        currentCursor := some cursor
                        incidentCount := 0
                        unackedIncidentCount := 0
                        gapCount := 0
                        lastError := none }
                    let state := pruneMonitorCapacity state
                    if maxMonitors ≤ state.monitors.size then
                      (.returned (.error .capacity), state)
                    else
                      (.persisting,
                        { state with
                          monitors := state.monitors.insert requestId monitor
                          incidents := state.incidents.insert requestId
                            ((state.incidents.lookup requestId).getD [])
                          checkpoints := state.checkpoints.insert requestId ⟨cursor, none, none⟩ })

/-- The view which `update` writes, from the one which it has read. -/
def updatedView (now : ℤ) (view : MonitorView) (spec : MonitorSpec) (cursor : Cursor) :
    MonitorView :=
  { view with
    revision := satAdd u64Max view.revision 1
    spec := { spec with startCursor := some cursor }
    status := .running
    startedWallTimeNs := now
    expiresWallTimeNs := durationDeadline now spec.durationMs
    stoppedWallTimeNs := none
    currentCursor := some cursor
    lastError := none }

/-- The mutation of `update`; it has read `view` before. -/
def update (now : ℤ) (id : Uuid) (view : MonitorView) (spec : MonitorSpec) (cursor : Cursor)
    (expectedRevision : ℕ) : Mutation := fun state =>
  match state.monitors.lookup id with
  | none => (.returned (.error (.notFound id)), state)
  | some current =>
      if current.revision ≠ expectedRevision then
        (.returned (.error (.revisionMismatch expectedRevision current.revision)), state)
      else if ¬ current.isRunning ∧ maxActiveMonitors ≤ activeCount state then
        (.returned (.error .activeCapacity), state)
      else
        (.persisting,
          { state with
            monitors := state.monitors.insert id (updatedView now view spec cursor)
            checkpoints := state.checkpoints.insert id ⟨cursor, none, none⟩ })

def stop (now : ℤ) (id : Uuid) (expectedRevision : ℕ) : Mutation := fun state =>
  match state.monitors.lookup id with
  | none => (.returned (.error (.notFound id)), state)
  | some monitor =>
      if monitor.revision ≠ expectedRevision then
        (.returned (.error (.revisionMismatch expectedRevision monitor.revision)), state)
      else if monitor.isRunning then
        (.persisting,
          { state with
            monitors := state.monitors.insert id
              { monitor with
                status := .stopped
                stoppedWallTimeNs := some now
                revision := satAdd u64Max monitor.revision 1 } })
      else (.persisting, state)

def deleteStopped (id : Uuid) (expectedRevision : ℕ) : Mutation := fun state =>
  match state.monitors.lookup id with
  | none => (.returned (.error (.notFound id)), state)
  | some monitor =>
      if monitor.revision ≠ expectedRevision then
        (.returned (.error (.revisionMismatch expectedRevision monitor.revision)), state)
      else if monitor.isRunning then
        (.returned (.error (.invalidSpec "stop the Monitor before deleting its history")), state)
      else (.persisting, removeMonitor id state)

/-- The first incident with this id, acknowledged at `now` if it was not. -/
def ackFirst (now : ℤ) (incidentId : Uuid) : List MonitorIncident → List MonitorIncident
  | [] => []
  | incident :: rest =>
      if incident.id = incidentId then
        (if incident.isUnacked then { incident with ackedWallTimeNs := some now } else incident) ::
          rest
      else incident :: ackFirst now incidentId rest

def acknowledgeIncident (now : ℤ) (id incidentId : Uuid) : Mutation := fun state =>
  match state.incidents.lookup id with
  | none => (.returned (.error (.notFound id)), state)
  | some queue =>
      match queue.find? (fun incident => incident.id = incidentId) with
      | none => (.returned (.error (.notFound incidentId)), state)
      | some incident =>
          if incident.isUnacked then
            (.persisting,
              { state with
                incidents := state.incidents.insert id (ackFirst now incidentId queue)
                monitors :=
                  match state.monitors.lookup id with
                  | none => state.monitors
                  | some monitor =>
                      state.monitors.insert id
                        { monitor with unackedIncidentCount := monitor.unackedIncidentCount - 1 } })
          else (.persisting, state)

def failMonitor (now : ℤ) (id : Uuid) (revision : ℕ) (error : String) : Mutation := fun state =>
  match state.monitors.lookup id with
  | none => (.returned (.error (.notFound id)), state)
  | some monitor =>
      if monitor.revision = revision ∧ monitor.isRunning then
        (.persisting,
          { state with
            monitors := state.monitors.insert id
              { monitor with
                status := .failed
                stoppedWallTimeNs := some now
                lastError := some (truncateText error maxDescriptionBytes) } })
      else (.persisting, state)

def completeMonitor (now : ℤ) (id : Uuid) (expectedRevision : ℕ) : Mutation := fun state =>
  match state.monitors.lookup id with
  | none => (.returned (.error (.notFound id)), state)
  | some monitor =>
      if monitor.isRunning ∧ monitor.revision = expectedRevision then
        (.persisting,
          { state with
            monitors := state.monitors.insert id
              { monitor with status := .completed, stoppedWallTimeNs := some now } })
      else (.persisting, state)

def checkpointProgress (id : Uuid) (expectedRevision : ℕ) (checkpoint : MonitorCheckpoint) :
    Mutation := fun state =>
  match state.monitors.lookup id with
  | none => (.returned (.error (.notFound id)), state)
  | some monitor =>
      if ¬ monitor.isRunning ∨ monitor.revision ≠ expectedRevision then (.returned (.ok ()), state)
      else if state.checkpoints.lookup id = some checkpoint then (.returned (.ok ()), state)
      else (.persisting, { state with checkpoints := state.checkpoints.insert id checkpoint })

def recordGap (id : Uuid) (expectedRevision : ℕ) (message : String) : Mutation := fun state =>
  match state.monitors.lookup id with
  | none => (.returned (.error (.notFound id)), state)
  | some monitor =>
      if ¬ monitor.isRunning ∨ monitor.revision ≠ expectedRevision then (.persisting, state)
      else
        (.persisting,
          { state with
            monitors := state.monitors.insert id
              { monitor with
                gapCount := satAdd u64Max monitor.gapCount 1
                lastError := some (truncateText message maxDescriptionBytes) } })

/-- The incident which a monitor records next. -/
def newIncident (now : ℤ) (serverId incidentId : Uuid) (monitor : MonitorView)
    (pending : PendingIncident) : MonitorIncident where
  id := incidentId
  incidentSeq := satAdd u64Max monitor.incidentCount 1
  monitorId := monitor.id
  port := monitor.spec.port
  daemonEpoch := pending.daemonEpoch
  seqStart := pending.seqStart
  seqEnd := pending.seqEnd
  wallTimeStartNs := pending.wallTimeStartNs
  wallTimeEndNs := pending.wallTimeEndNs
  severity := monitor.spec.severity
  description := monitor.spec.description
  found := pending.found
  preview := truncateText pending.preview maxPreviewBytes
  evidenceCursor := ⟨pending.daemonEpoch, pending.seqStart - 1⟩
  evidenceRef := "serial://" ++ uuidText serverId ++ "/ports/" ++ monitor.spec.port ++
    "/events?epoch=" ++ uuidText pending.daemonEpoch ++ "&after_seq=" ++
    toString (pending.seqStart - 1) ++ "&through_seq=" ++ toString pending.seqEnd
  createdWallTimeNs := now
  ackedWallTimeNs := none

/-- Room for one more incident of this monitor. -/
def makeIncidentRoom (id : Uuid) (state : PersistedState) : PersistedState :=
  let state :=
    if maxIncidentsPerMonitor ≤ ((state.incidents.lookup id).getD []).length then
      pruneOneMonitorIncident id state
    else state
  if maxIncidentsTotal ≤ incidentTotal state then pruneOneGlobalIncident state else state

def pushIncident (id : Uuid) (incident : MonitorIncident) (checkpoint : MonitorCheckpoint)
    (monitor : MonitorView) (state : PersistedState) : PersistedState :=
  recomputeUnackedCounts
    { state with
      monitors := state.monitors.insert id
        { monitor with
          incidentCount := incident.incidentSeq
          unackedIncidentCount := satAdd u64Max monitor.unackedIncidentCount 1 }
      incidents := state.incidents.insert id
        (((state.incidents.lookup id).getD []) ++ [incident])
      checkpoints := state.checkpoints.insert id checkpoint }

def recordIncident (now : ℤ) (serverId incidentId id : Uuid) (expectedRevision : ℕ)
    (pending : PendingIncident) (checkpoint : MonitorCheckpoint) : Mutation := fun state =>
  match state.monitors.lookup id with
  | none => (.returned (.error (.notFound id)), state)
  | some monitor =>
      if ¬ monitor.isRunning ∨ monitor.revision ≠ expectedRevision then (.persisting, state)
      else
        let state := makeIncidentRoom id state
        match state.monitors.lookup id with
        | none => (.returned (.error (.notFound id)), state)
        | some monitor =>
            (.persisting,
              pushIncident id (newIncident now serverId incidentId monitor pending) checkpoint
                monitor state)

/-- A mutation by the operation which makes it. -/
inductive Operation
  | create (now : ℤ) (requestId : Uuid) (requested : MonitorSpec) (slot : Option (Uuid × ℕ))
  | update (now : ℤ) (id : Uuid) (view : MonitorView) (spec : MonitorSpec) (cursor : Cursor)
      (expectedRevision : ℕ)
  | stop (now : ℤ) (id : Uuid) (expectedRevision : ℕ)
  | deleteStopped (id : Uuid) (expectedRevision : ℕ)
  | acknowledgeIncident (now : ℤ) (id incidentId : Uuid)
  | failMonitor (now : ℤ) (id : Uuid) (revision : ℕ) (error : String)
  | completeMonitor (now : ℤ) (id : Uuid) (expectedRevision : ℕ)
  | checkpointProgress (id : Uuid) (expectedRevision : ℕ) (checkpoint : MonitorCheckpoint)
  | recordGap (id : Uuid) (expectedRevision : ℕ) (message : String)
  | recordIncident (now : ℤ) (serverId incidentId id : Uuid) (expectedRevision : ℕ)
      (pending : PendingIncident) (checkpoint : MonitorCheckpoint)

def Operation.mutate (regexError : String → Option String) : Operation → Mutation
  | .create now requestId requested slot => Monitor.create regexError now requestId requested slot
  | .update now id view spec cursor expectedRevision =>
      Monitor.update now id view spec cursor expectedRevision
  | .stop now id expectedRevision => Monitor.stop now id expectedRevision
  | .deleteStopped id expectedRevision => Monitor.deleteStopped id expectedRevision
  | .acknowledgeIncident now id incidentId => Monitor.acknowledgeIncident now id incidentId
  | .failMonitor now id revision error => Monitor.failMonitor now id revision error
  | .completeMonitor now id expectedRevision => Monitor.completeMonitor now id expectedRevision
  | .checkpointProgress id expectedRevision checkpoint =>
      Monitor.checkpointProgress id expectedRevision checkpoint
  | .recordGap id expectedRevision message => Monitor.recordGap id expectedRevision message
  | .recordIncident now serverId incidentId id expectedRevision pending checkpoint =>
      Monitor.recordIncident now serverId incidentId id expectedRevision pending checkpoint

end SerialPlatform.Monitor
