import SerialPlatform.MonitorState

/-!
# Monitor operations between their awaits

`update` and `stop` read a view, stop the worker and wait for its task before they
take the mutation lock.  A mutation is seen at once and is rolled back when it cannot
be written.  Workers run beside all this: a task is registered by its handle and may
still work after its handle is gone.
-/

namespace SerialPlatform.Monitor

/-- A registered worker. -/
structure WorkerHandle where
  token : Uuid
  revision : ℕ
  deriving DecidableEq

/-- A running task of a worker. -/
structure Worker where
  token : Uuid
  monitorId : Uuid
  revision : ℕ
  cancelled : Bool
  deriving DecidableEq

/-- A worker which is registered and waits for the task before it. -/
structure Spawn where
  token : Uuid
  monitorId : Uuid
  revision : ℕ
  awaited : Option Uuid
  deriving DecidableEq

inductive CallStage
  | read
  | stopping (awaited : Option Uuid)
  | mutated
  deriving DecidableEq

/-- An `update` or a `stop` on its way, with the view it has read. -/
structure Call where
  id : Uuid
  expectedRevision : ℕ
  view : MonitorView
  /-- The specification and the cursor of an `update`. -/
  change : Option (MonitorSpec × Cursor)
  stage : CallStage
  deriving DecidableEq

/-- The holder of the mutation lock, while its state is written. -/
structure Writing where
  previous : PersistedState
  operation : Operation

/-- What was committed for a monitor since its creation. -/
structure Ledger where
  /-- The numbers of its incidents. -/
  assigned : List ℕ
  /-- Its gap count after each mutation. -/
  gapCounts : List ℕ
  deriving DecidableEq

structure Manager where
  state : PersistedState
  file : Option PersistedState
  writing : Option Writing
  handles : OrderedMap Uuid WorkerHandle
  workers : List Worker
  spawns : List Spawn
  calls : List Call
  ledger : Uuid → Ledger

/-- A manager which has loaded this state. -/
def Manager.opened (state : PersistedState) (file : Option PersistedState) : Manager where
  state := state
  file := file
  writing := none
  handles := .empty
  workers := []
  spawns := []
  calls := []
  ledger := fun _ => ⟨[], []⟩

/-! ## The ledger -/

/-- The numbers of the incidents which the mutation has recorded for a monitor. -/
def Writing.assigned (writing : Writing) (state : PersistedState) (id : Uuid) : List ℕ :=
  match writing.operation with
  | .recordIncident _ _ _ recorded expectedRevision _ _ =>
      match writing.previous.monitors.lookup recorded with
      | none => []
      | some monitor =>
          if recorded = id ∧ monitor.isRunning ∧ monitor.revision = expectedRevision then
            ((((state.incidents.lookup id).getD []).getLast?).map
              MonitorIncident.incidentSeq).toList
          else []
  | _ => []

def Writing.commit (writing : Writing) (state : PersistedState) (ledger : Uuid → Ledger) :
    Uuid → Ledger := fun id =>
  match state.monitors.lookup id, writing.previous.monitors.lookup id with
  | none, _ => ⟨[], []⟩
  | some view, none => ⟨[], [view.gapCount]⟩
  | some view, some _ =>
      ⟨(ledger id).assigned ++ writing.assigned state id, (ledger id).gapCounts ++ [view.gapCount]⟩

/-- The state which the next mutation will find if the current one is rolled back. -/
def Manager.committed (manager : Manager) : PersistedState :=
  match manager.writing with
  | none => manager.state
  | some writing => writing.previous

/-! ## Acts -/

inductive Act
  /-- `create`, `delete_stopped` and `acknowledge_incident` -/
  | request (operation : Operation)
  | readUpdate (id : Uuid) (expectedRevision : ℕ) (spec : MonitorSpec) (slot : Option (Uuid × ℕ))
  | readStop (id : Uuid) (expectedRevision : ℕ)
  /-- `stop_worker` of the call at this place -/
  | stopWorker (place : ℕ)
  | mutateCall (place : ℕ) (now : ℤ)
  /-- A mutation by the task of a worker -/
  | work (token : Uuid) (operation : Operation)
  /-- `update_progress` -/
  | progress (token : Uuid) (cursor : Cursor)
  | persisted
  /-- The write failed, perhaps after the file was replaced. -/
  | persistFailed (replaced : Bool)
  /-- `spawn_worker` up to the registration -/
  | reserve (id : Uuid) (revision : ℕ) (token : Uuid)
  /-- `spawn_worker` after the task before it has ended -/
  | launch (place : ℕ)
  /-- `clear_worker_if_token` -/
  | clearHandle (token : Uuid)
  | exit (token : Uuid)

namespace Manager

/-- The lock is free, and the mutation is made. -/
def begin (regexError : String → Option String) (operation : Operation) (manager : Manager) :
    Option Manager :=
  match manager.writing with
  | some _ => none
  | none =>
      let attempt := operation.mutate regexError manager.state
      match attempt.1 with
      | .returned _ => some { manager with state := attempt.2 }
      | .persisting =>
          some { manager with state := attempt.2, writing := some ⟨manager.state, operation⟩ }

def isAlive (manager : Manager) (token : Uuid) : Bool :=
  manager.workers.any fun worker => worker.token = token

/-- The tasks with the cancellation sent to one of them. -/
def cancelled (workers : List Worker) (token : Uuid) : List Worker :=
  workers.map fun worker => if worker.token = token then { worker with cancelled := true } else worker

/-- The handle of this revision, if it is registered. -/
def handleOf (manager : Manager) (id : Uuid) (revision : ℕ) : Option WorkerHandle :=
  (manager.handles.lookup id).filter fun handle => handle.revision = revision

def isAuthoritative (manager : Manager) (id : Uuid) (revision : ℕ) : Bool :=
  match manager.state.monitors.lookup id with
  | none => false
  | some view => view.isRunning && view.revision = revision

/-- The monitor of an operation which the task of a worker may make. -/
def workerOperation (worker : Worker) : Operation → Bool
  | .failMonitor _ id revision _ => id = worker.monitorId && revision = worker.revision
  | .completeMonitor _ id revision => id = worker.monitorId && revision = worker.revision
  | .checkpointProgress id revision _ => id = worker.monitorId && revision = worker.revision
  | .recordGap id revision _ => id = worker.monitorId && revision = worker.revision
  | .recordIncident _ _ _ id revision _ _ => id = worker.monitorId && revision = worker.revision
  | _ => false

def isRequest : Operation → Bool
  | .create .. => true
  | .deleteStopped .. => true
  | .acknowledgeIncident .. => true
  | _ => false

def read (id : Uuid) (expectedRevision : ℕ) (change : Option (MonitorSpec × Cursor))
    (manager : Manager) : Option Manager :=
  match manager.state.monitors.lookup id with
  | none => none
  | some view =>
      if view.revision = expectedRevision then
        some { manager with calls := manager.calls ++ [⟨id, expectedRevision, view, change, .read⟩] }
      else none

/-- An operation which is refused before it reads the catalog makes no act. -/
def readUpdate (regexError : String → Option String) (id : Uuid) (expectedRevision : ℕ)
    (spec : MonitorSpec) (slot : Option (Uuid × ℕ)) (manager : Manager) : Option Manager :=
  match validateSpec regexError spec, slot with
  | .ok (), some (daemonEpoch, headSeq) =>
      match resolveStartCursor spec daemonEpoch headSeq with
      | .error _ => none
      | .ok cursor => manager.read id expectedRevision (some (spec, cursor))
  | _, _ => none

def stopWorker (place : ℕ) (manager : Manager) : Option Manager := do
  let call ← manager.calls[place]?
  let handle := manager.handleOf call.id call.expectedRevision
  let stopped : Manager :=
    match handle with
    | none => manager
    | some handle =>
        { manager with
          handles := manager.handles.erase call.id
          workers := cancelled manager.workers handle.token }
  match call.stage with
  | .read =>
      some
        { stopped with
          calls := manager.calls.set place
            { call with stage := .stopping (handle.map WorkerHandle.token) } }
  | .stopping _ => none
  | .mutated => some { stopped with calls := manager.calls.eraseIdx place }

def mutateCall (regexError : String → Option String) (place : ℕ) (now : ℤ) (manager : Manager) :
    Option Manager := do
  let call ← manager.calls[place]?
  match call.stage with
  | .stopping awaited =>
      if ∃ token ∈ awaited, manager.isAlive token then none
      else
        let operation : Operation :=
          match call.change with
          | some (spec, cursor) =>
              .update now call.id call.view spec cursor call.expectedRevision
          | none => .stop now call.id call.expectedRevision
        let manager ← manager.begin regexError operation
        some
          { manager with calls := manager.calls.set place { call with stage := .mutated } }
  | _ => none

def progress (token : Uuid) (cursor : Cursor) (manager : Manager) : Option Manager := do
  let worker ← manager.workers.find? fun worker => worker.token = token
  let view ← manager.state.monitors.lookup worker.monitorId
  if view.isRunning ∧ view.revision = worker.revision then
    some
      { manager with
        state :=
          { manager.state with
            monitors := manager.state.monitors.insert worker.monitorId
              { view with currentCursor := some cursor } } }
  else some manager

def reserve (id : Uuid) (revision : ℕ) (token : Uuid) (manager : Manager) : Option Manager :=
  let previous := manager.handles.lookup id
  if manager.isAuthoritative id revision ∧ (∀ handle ∈ previous, handle.revision < revision) ∧
      ¬ manager.isAlive token then
    some
      { manager with
        handles := manager.handles.insert id ⟨token, revision⟩
        workers :=
          match previous with
          | none => manager.workers
          | some handle => cancelled manager.workers handle.token
        spawns := manager.spawns ++ [⟨token, id, revision, previous.map WorkerHandle.token⟩] }
  else none

def clear (token : Uuid) (id : Uuid) (manager : Manager) : OrderedMap Uuid WorkerHandle :=
  if ∃ handle ∈ manager.handles.lookup id, handle.token = token then manager.handles.erase id
  else manager.handles

def launch (place : ℕ) (manager : Manager) : Option Manager := do
  let spawn ← manager.spawns[place]?
  let spawns := manager.spawns.eraseIdx place
  if ∃ token ∈ spawn.awaited, manager.isAlive token then none
  else if ¬ manager.isAuthoritative spawn.monitorId spawn.revision then
    some { manager with handles := manager.clear spawn.token spawn.monitorId, spawns := spawns }
  else if ∃ handle ∈ manager.handles.lookup spawn.monitorId, handle.token = spawn.token then
    some
      { manager with
        spawns := spawns
        workers := manager.workers ++ [⟨spawn.token, spawn.monitorId, spawn.revision, false⟩] }
  else some { manager with spawns := spawns }

def clearHandle (token : Uuid) (manager : Manager) : Option Manager := do
  let worker ← manager.workers.find? fun worker => worker.token = token
  some { manager with handles := manager.clear token worker.monitorId }

def persisted (manager : Manager) : Option Manager := do
  let writing ← manager.writing
  some
    { manager with
      file := some manager.state
      writing := none
      ledger := writing.commit manager.state manager.ledger }

def persistFailed (replaced : Bool) (manager : Manager) : Option Manager := do
  let writing ← manager.writing
  some
    { manager with
      file := if replaced then some manager.state else manager.file
      state := writing.previous
      writing := none }

/-- One act; `none` if it cannot happen now. -/
def perform (regexError : String → Option String) (manager : Manager) : Act → Option Manager
  | .request operation =>
      if isRequest operation then manager.begin regexError operation else none
  | .readUpdate id expectedRevision spec slot =>
      manager.readUpdate regexError id expectedRevision spec slot
  | .readStop id expectedRevision => manager.read id expectedRevision none
  | .stopWorker place => manager.stopWorker place
  | .mutateCall place now => manager.mutateCall regexError place now
  | .work token operation =>
      if ∃ worker ∈ manager.workers, worker.token = token ∧ workerOperation worker operation then
        manager.begin regexError operation
      else none
  | .progress token cursor => manager.progress token cursor
  | .persisted => manager.persisted
  | .persistFailed replaced => manager.persistFailed replaced
  | .reserve id revision token => manager.reserve id revision token
  | .launch place => manager.launch place
  | .clearHandle token => manager.clearHandle token
  | .exit token =>
      some { manager with workers := manager.workers.filter fun worker => worker.token ≠ token }

def performAll (regexError : String → Option String) : List Act → Manager → Option Manager
  | [], manager => some manager
  | act :: rest, manager => do
      let manager ← manager.perform regexError act
      performAll regexError rest manager

end Manager

/-- The managers which a daemon reaches: it starts without a file, acts, or is stopped
and opened again on the file. -/
inductive Reachable (regexError : String → Option String) : Manager → Prop
  | fresh : Reachable regexError (.opened .default none)
  | act {manager manager' : Manager} (h : Reachable regexError manager) (act : Act)
      (hact : manager.perform regexError act = some manager') : Reachable regexError manager'
  | reopened {manager : Manager} {file : PersistedState} (h : Reachable regexError manager)
      (hfile : manager.file = some file)
      (hvalid : validateLoadedState regexError file = .ok ()) :
      Reachable regexError (.opened file (some file))

end SerialPlatform.Monitor
