import SerialPlatform.Protocol
import Mathlib.Tactic

/-!
# The write queue of the console

Input under a control lease waits in a queue for each port, and the whole operation stays
there until the last of its chunks is acknowledged.  The progress inside of the first
operation is kept beside the queue.
-/

namespace SerialPlatform.Console

def maxPendingWrites : ℕ := 16

def maxPendingBytes : ℕ := 64 * 1024

def maxOutstandingRequests : ℕ := 512

def maxWriteBytes : ℕ := 4 * 1024

inductive PendingWriteKind
  | line
  | bareEnter
  deriving DecidableEq

def PendingWriteKind.isLine : PendingWriteKind → Bool
  | .line | .bareEnter => true

/-- A chunk.  Its place among all chunks that were ever queued is not in the source, and
nothing reads it. -/
structure PendingWrite where
  data : Bytes
  operationId : Option Uuid
  kind : PendingWriteKind
  place : ℕ
  deriving DecidableEq

structure InFlightWrite where
  operationId : Option Uuid
  kind : PendingWriteKind
  chunkIndex : ℕ
  deriving DecidableEq

/-- What the source compares to tell operations apart. -/
def PendingWrite.key (write : PendingWrite) : Option Uuid × PendingWriteKind :=
  (write.operationId, write.kind)

def InFlightWrite.key (progress : InFlightWrite) : Option Uuid × PendingWriteKind :=
  (progress.operationId, progress.kind)

/-! ## Operations in the queue -/

structure QueuedLineOperation where
  operationId : Option Uuid
  kind : PendingWriteKind
  start : ℕ
  /-- `end` -/
  stop : ℕ
  data : Bytes
  deriving DecidableEq

/-- A turn of the loop over the queue. -/
def extendOperations (operations : List QueuedLineOperation) (write : PendingWrite) (index : ℕ) :
    List QueuedLineOperation :=
  if write.kind.isLine = false then operations
  else
    match operations.getLast? with
    | some operation =>
        if operation.stop = index ∧ operation.operationId = write.operationId ∧
            operation.kind = write.kind then
          operations.dropLast ++
            [{ operation with stop := operation.stop + 1, data := operation.data ++ write.data }]
        else operations ++ [⟨write.operationId, write.kind, index, index + 1, write.data⟩]
    | none => operations ++ [⟨write.operationId, write.kind, index, index + 1, write.data⟩]

def queuedLineOperations (queue : List PendingWrite) : List QueuedLineOperation :=
  queue.zipIdx.foldl (fun operations entry => extendOperations operations entry.1 entry.2) []

/-- The operation which is taken, and the queue without it. -/
def takeQueuedLineOperation (queue : List PendingWrite) (operationIndex : ℕ) :
    Option (QueuedLineOperation × List PendingWrite) :=
  (queuedLineOperations queue)[operationIndex]?.map fun operation =>
    ({ operation with
        data := ((queue.take operation.stop).drop operation.start).flatMap PendingWrite.data },
      queue.take operation.start ++ queue.drop operation.stop)

/-- The chunks of the data, placed from a number on. -/
def chunksFrom (place : ℕ) (data : Bytes) (operationId : Option Uuid) (kind : PendingWriteKind) :
    List PendingWrite :=
  (data.toChunks maxWriteBytes).zipIdx.map fun entry =>
    ⟨entry.1, operationId, kind, place + entry.2⟩

def appendPendingWrite (queue : List PendingWrite) (place : ℕ) (data : Bytes)
    (operationId : Option Uuid) (kind : PendingWriteKind) : List PendingWrite :=
  queue ++ chunksFrom place data operationId kind

/-! ## The console -/

inductive PendingRequest
  | acquire (port : String)
  | renew (port : String)
  | release (port : String)
  | cancelAcquire (port : String)
  | write (port : String) (operationId : Option Uuid)
  | humanCommand (port : String)
  | runStartDecision (port : String)
  deriving DecidableEq

inductive ClientMessage
  | write (requestId : Uuid) (port : String) (lease : ControlLease) (write : PendingWrite)
  | acquireControl (requestId : Uuid) (port : String)
  | cancelAcquire (requestId : Uuid) (port : String)
  | releaseControl (requestId : Uuid) (port : String) (lease : ControlLease)
  /-- A request of another part of the console. -/
  | other (requestId : Uuid)
  deriving DecidableEq

/-- A port, as far as its writes depend on it. -/
structure PortView where
  /-- `subscription.is_ready()` -/
  ready : Bool
  control : Option ControlLease
  /-- `active_trigger.is_some()` -/
  activeTrigger : Bool

structure App where
  transportConnected : Bool
  helloAccepted : Bool
  connectionGeneration : Option ℕ
  actor : Option Actor
  ports : List String
  views : String → PortView
  selectedPort : String
  pendingWrites : String → Option (List PendingWrite)
  inflightWrites : String → Option InFlightWrite
  pendingRequests : List (Uuid × PendingRequest)
  queuedControls : String → Bool
  /-- The next new request id. -/
  nextRequest : Uuid
  /-- What was put on the outbound channel. -/
  outbound : List ClientMessage
  /-- The place of the next chunk. -/
  queued : ℕ

namespace App

def queue (app : App) (port : String) : List PendingWrite := (app.pendingWrites port).getD []

def ownsControl (app : App) (port : String) : Bool :=
  match app.actor, (app.views port).control with
  | some actor, some lease => lease.owner.id = actor.id
  | _, _ => false

def connected (app : App) : Bool := app.transportConnected && app.helloAccepted

/-- The values of `pending_writes` which are a Write of the port. -/
def writing (app : App) (port : String) : Bool :=
  app.pendingRequests.any fun entry =>
    match entry.2 with
    | .write pending _ => pending = port
    | _ => false

def acquiring (app : App) (port : String) : Bool :=
  app.pendingRequests.any fun entry => entry.2 = .acquire port

def request (app : App) (requestId : Uuid) : Option PendingRequest :=
  (app.pendingRequests.find? fun entry => entry.1 = requestId).map Prod.snd

/-- `pending_requests.remove`. -/
def answered (app : App) (requestId : Uuid) : App :=
  { app with pendingRequests := app.pendingRequests.filter fun entry => entry.1 ≠ requestId }

def setQueue (app : App) (port : String) (queue : Option (List PendingWrite)) : App :=
  { app with pendingWrites := Function.update app.pendingWrites port queue }

/-- What is left of a queue; an empty one is removed. -/
def setRest (app : App) (port : String) (rest : List PendingWrite) : App :=
  app.setQueue port (if rest = [] then none else some rest)

def setProgress (app : App) (port : String) (progress : Option InFlightWrite) : App :=
  { app with inflightWrites := Function.update app.inflightWrites port progress }

def setView (app : App) (port : String) (view : PortView) : App :=
  { app with views := Function.update app.views port view }

def setControl (app : App) (port : String) (control : Option ControlLease) : App :=
  app.setView port { app.views port with control := control }

def setQueuedControl (app : App) (port : String) (queued : Bool) : App :=
  { app with queuedControls := Function.update app.queuedControls port queued }

/-- `pending_requests.retain`, without the Acquires of the port. -/
def dropAcquires (app : App) (port : String) : App :=
  { app with pendingRequests := app.pendingRequests.filter fun entry => entry.2 ≠ .acquire port }

/-- The queue of the port and its progress are discarded. -/
def discard (app : App) (port : String) : App := (app.setQueue port none).setProgress port none

/-- A message goes onto the channel when the console is connected, not too many requests are
outstanding, and the channel accepts it. -/
def canSend (app : App) (accepts : Bool) : Bool :=
  app.connected && app.connectionGeneration.isSome &&
    decide (app.pendingRequests.length < maxOutstandingRequests) && accepts

def sendMessage (app : App) (accepts : Bool) (message : Uuid → ClientMessage)
    (pending : PendingRequest) : Option App :=
  if app.canSend accepts then
    some { app with
      outbound := app.outbound ++ [message app.nextRequest]
      pendingRequests := app.pendingRequests ++ [(app.nextRequest, pending)]
      nextRequest := app.nextRequest + 1 }
  else none

/-! ## Flushing and acknowledging -/

/-- Nothing keeps the port from writing. -/
def mayWrite (app : App) (port : String) : Bool :=
  app.connected && (app.views port).ready && app.ownsControl port &&
    !(app.views port).activeTrigger

/-- The chunk to send, with its progress. -/
def nextWrite (app : App) (port : String) : Option (InFlightWrite × PendingWrite) := do
  let progress ← (app.inflightWrites port).orElse fun _ =>
    (app.queue port).head?.map fun write => ⟨write.operationId, write.kind, 0⟩
  let write ← ((app.queue port)[progress.chunkIndex]?).filter fun write =>
    write.operationId = progress.operationId ∧ write.kind = progress.kind
  return (progress, write)

def sendWriteNow (app : App) (accepts : Bool) (port : String) (write : PendingWrite) : Option App :=
  if port ∈ app.ports then
    match (app.views port).control with
    | none => none
    | some lease => app.sendMessage accepts (fun id => .write id port lease write)
        (.write port write.operationId)
  else none

def flushPendingWrites (app : App) (accepts : Bool) (port : String) : Bool × App :=
  if port ∉ app.ports then (false, app)
  else if app.mayWrite port = false then (true, app)
  else if app.writing port then (true, app)
  else
    match app.nextWrite port with
    | none => (true, app)
    | some (progress, write) =>
        match (app.setProgress port (some progress)).sendWriteNow accepts port write with
        | some sent => (true, sent)
        | none => (false, app.setProgress port none)

def acknowledgeInflightWrite (app : App) (port : String) : App :=
  match app.inflightWrites port with
  | none => app
  | some progress =>
      let nextIndex := progress.chunkIndex + 1
      if ((app.queue port)[nextIndex]?).any fun write =>
          write.operationId = progress.operationId ∧ write.kind = progress.kind then
        app.setProgress port (some { progress with chunkIndex := nextIndex })
      else
        (app.setRest port ((app.queue port).drop nextIndex)).setProgress port none

/-! ## What the user does -/

def acquireControl (app : App) (accepts : Bool) : Option App :=
  if app.connected = false ∨ (app.views app.selectedPort).ready = false then none
  else app.sendMessage accepts (fun id => .acquireControl id app.selectedPort)
    (.acquire app.selectedPort)

/-- The queue of the selected port with the writes behind it, and the place behind them. -/
def candidate (app : App) (writes : List (Bytes × Option Uuid)) (kind : PendingWriteKind) :
    List PendingWrite × ℕ :=
  (writes.filter fun entry => entry.1 ≠ []).foldl
    (fun built entry =>
      let queue := appendPendingWrite built.1 built.2 entry.1 entry.2 kind
      (queue, built.2 + (queue.length - built.1.length)))
    (app.queue app.selectedPort, app.queued)

/-- The writes are queued. -/
def enqueue (app : App) (writes : List (Bytes × Option Uuid)) (kind : PendingWriteKind) : App :=
  { app.setQueue app.selectedPort (some (app.candidate writes kind).1) with
    queued := (app.candidate writes kind).2 }

def totalPending (app : App) : ℕ := (app.ports.map fun port => (app.queue port).length).sum

def totalBytes (app : App) : ℕ :=
  (app.ports.map fun port => ((app.queue port).map fun write => write.data.length).sum).sum

/-- The writes are taken into the queue. -/
def takes (app : App) (writes : List (Bytes × Option Uuid)) (kind : PendingWriteKind) : Bool :=
  !writes.all (fun entry => entry.1 = []) && app.connected && (app.views app.selectedPort).ready &&
    decide (app.totalPending - (app.queue app.selectedPort).length +
      (app.candidate writes kind).1.length ≤ maxPendingWrites) &&
    decide (app.totalBytes + (writes.map fun entry => entry.1.length).sum ≤ maxPendingBytes)

def requestWriteOperations (app : App) (accepts : Bool) (writes : List (Bytes × Option Uuid))
    (kind : PendingWriteKind) : Bool × App :=
  if writes.all fun entry => entry.1 = [] then (true, app)
  else if app.takes writes kind = false then (false, app)
  else
    let port := app.selectedPort
    let previous := app.queue port
    let app := app.enqueue writes kind
    if app.ownsControl port then
      let (flushed, app) := app.flushPendingWrites accepts port
      (flushed || (app.pendingWrites port).isSome, app)
    else if app.acquiring port then (true, app)
    else
      match app.acquireControl accepts with
      | some app => (true, app)
      | none => (false, app.setRest port previous)

def cancelQueuedControl (app : App) (accepts : Bool) (port : String) : App :=
  match app.sendMessage accepts (fun id => .cancelAcquire id port) (.cancelAcquire port) with
  | none => app
  | some app => ((app.discard port).setQueuedControl port false).dropAcquires port

/-- A Write of the port under way, which may be one of the operation. -/
def sending (app : App) (port : String) (operation : QueuedLineOperation) : Bool :=
  app.pendingRequests.any fun entry =>
    match entry.2 with
    | .write pending operationId =>
        pending = port ∧ (operation.operationId = none ∨ operation.operationId = operationId)
    | _ => false

def removeQueuedLineOperation (app : App) (accepts : Bool) (operationIndex : ℕ) : App :=
  let port := app.selectedPort
  match takeQueuedLineOperation (app.queue port) operationIndex with
  | none => app
  | some (operation, rest) =>
      if app.sending port operation then app
      else
        let app := app.setRest port rest
        if rest = [] ∧ app.ownsControl port = false ∧
            (app.queuedControls port = true ∨ app.acquiring port = true) then
          app.cancelQueuedControl accepts port
        else app

def releaseSlotControl (app : App) (accepts : Bool) (port : String) (lease : ControlLease) : App :=
  if app.pendingRequests.any fun entry => entry.2 = .release port then app
  else (app.sendMessage accepts (fun id => .releaseControl id port lease) (.release port)).getD app

def hasQueuedControl (app : App) (port : String) : Bool :=
  app.queuedControls port || (app.pendingWrites port).isSome || app.acquiring port

def releaseControl (app : App) (accepts : Bool) : App :=
  let port := app.selectedPort
  if app.connected = false ∨ (app.views port).ready = false then app
  else if app.ownsControl port = false ∧ app.hasQueuedControl port then
    app.cancelQueuedControl accepts port
  else
    match (app.views port).control with
    | none => app
    | some lease =>
        if app.ownsControl port = false then app
        else (app.discard port).releaseSlotControl accepts port lease

/-! ## What the daemon answers -/

def handleWriteAccepted (app : App) (accepts : Bool) (requestId : Uuid) : App :=
  match app.request requestId with
  | some (.write port _) =>
      (((app.answered requestId).acknowledgeInflightWrite port).flushPendingWrites accepts port).2
  | _ => app.answered requestId

def handleError (app : App) (requestId : Uuid) : App :=
  match app.request requestId with
  | some (.write port _) => ((app.answered requestId).setQueuedControl port false).discard port
  | some (.acquire port) => ((app.answered requestId).setQueuedControl port false).discard port
  | _ => app.answered requestId

/-- `install_lease`. -/
def installLease (app : App) (port : String) (lease : ControlLease) : App :=
  (app.setQueuedControl port false).setControl port (some lease)

def handleControlGranted (app : App) (accepts : Bool) (requestId : Uuid) (lease : ControlLease) :
    App :=
  match app.request requestId with
  | some (.acquire port) =>
      (((app.answered requestId).installLease port lease).flushPendingWrites accepts port).2
  | _ => app.answered requestId

/-- The projection of a live event. -/
def project (app : App) (port : String) (control : Option ControlLease) (activeTrigger : Bool) :
    App :=
  app.setView port { app.views port with control := control, activeTrigger := activeTrigger }

/-- A live event of a port, with the control and the trigger that it leaves. -/
def pushEvent (app : App) (accepts : Bool) (port : String) (control : Option ControlLease)
    (activeTrigger : Bool) : App :=
  if port ∉ app.ports then app
  else
    let app := app.project port control activeTrigger
    if (app.views port).ready && app.ownsControl port then
      (((app.setQueuedControl port false).dropAcquires port).flushPendingWrites accepts port).2
    else app

/-- The phase of the subscription of a port; `Ready` flushes. -/
def subscribe (app : App) (accepts : Bool) (port : String) (ready : Bool) : App :=
  if port ∉ app.ports then app
  else
    let app := app.setView port { app.views port with ready := ready }
    if ready && app.ownsControl port then (app.flushPendingWrites accepts port).2 else app

end App

/-! ## Runs -/

/-- What happens to the console on one connection. -/
inductive Input
  | requestWrite (accepts : Bool) (writes : List (Bytes × Option Uuid)) (kind : PendingWriteKind)
  | flush (accepts : Bool) (port : String)
  | writeAccepted (accepts : Bool) (requestId : Uuid)
  | error (requestId : Uuid)
  | controlGranted (accepts : Bool) (requestId : Uuid) (lease : ControlLease)
  | event (accepts : Bool) (port : String) (control : Option ControlLease) (activeTrigger : Bool)
  | subscription (accepts : Bool) (port : String) (ready : Bool)
  | removeOperation (accepts : Bool) (operationIndex : ℕ)
  | releaseControl (accepts : Bool)
  | cancelQueuedControl (accepts : Bool) (port : String)
  /-- A lease without a flush: renewed, granted with a run, or given up. -/
  | control (port : String) (control : Option ControlLease)
  | queuedControl (port : String)
  /-- A request of another part of the console, and the answer to it. -/
  | request (accepts : Bool) (pending : PendingRequest)
  | answer (requestId : Uuid)
  | select (port : String)

def App.step (app : App) : Input → App
  | .requestWrite accepts writes kind => (app.requestWriteOperations accepts writes kind).2
  | .flush accepts port => (app.flushPendingWrites accepts port).2
  | .writeAccepted accepts requestId => app.handleWriteAccepted accepts requestId
  | .error requestId => app.handleError requestId
  | .controlGranted accepts requestId lease => app.handleControlGranted accepts requestId lease
  | .event accepts port control activeTrigger => app.pushEvent accepts port control activeTrigger
  | .subscription accepts port ready => app.subscribe accepts port ready
  | .removeOperation accepts index => app.removeQueuedLineOperation accepts index
  | .releaseControl accepts => app.releaseControl accepts
  | .cancelQueuedControl accepts port => app.cancelQueuedControl accepts port
  | .control port control => app.setControl port control
  | .queuedControl port => app.setQueuedControl port true
  | .request accepts pending => (app.sendMessage accepts .other pending).getD app
  | .answer requestId => app.answered requestId
  | .select port => { app with selectedPort := port }

end SerialPlatform.Console
