import SerialPlatform.GuardedRuns
import SerialPlatform.Protocol

/-!
# The network worker of the console

One task connects, greets, serves the connection and connects again.  Commands wait in a
queue and may be taken while the worker connects, backs off, is connected or drains the
queue after a connection was lost.  The schedule is a list of acts: what the network,
the interface and the timers do next.
-/

namespace SerialPlatform.Console

inductive NetworkCommand (Message : Type)
  | send (generation : ℕ) (message : Message)
  | reconnect (reason : String)
  | reconfigure (ports : List String)
  | shutdown

/-- A frame, as far as the worker reads it. -/
inductive WireFrame
  /-- RX, TX and timeline events -/
  | event (port : String) (daemonEpoch : Uuid) (seq : ℕ)
  | snapshot (port : String) (daemonEpoch : Uuid)
  | ready (port : String) (headSeq : ℕ)
  | lagged (port : String) (fromSeq toSeq : ℕ)
  | error (requestId : Option Uuid) (cursorAhead : Bool) (message : String)
  | other

inductive ReconnectDirective
  | preserveCursors (reason : String)
  | resetCursors (reason : String)

structure Subscription where
  port : String
  cursor : Option Cursor
  tailEvents : ℕ

def buildSubscriptions (ports : List String) (cursors : String → Option Cursor) :
    List Subscription :=
  ports.map (fun port => ⟨port, cursors port, 500⟩)

def reconnectDirective (frame : WireFrame) (attachRequestId : Uuid) : Option ReconnectDirective :=
  match frame with
  | .lagged port fromSeq toSeq =>
      some (.preserveCursors
        s!"{port} lagged at sequences {fromSeq}..={toSeq}; reconnecting all Ports")
  | .error (some requestId) true message =>
      if requestId = attachRequestId then
        some (.resetCursors
          s!"attach cursor was ahead of the daemon ({message}); retrying from an authoritative snapshot")
      else none
  | _ => none

def advanceCursor (cursors : String → Option Cursor) (port : String) (epoch : Uuid) (seq : ℕ) :
    String → Option Cursor :=
  Function.update cursors port
    (match cursors port with
    | some cursor =>
        if cursor.epoch = epoch then some { cursor with afterSeq := max cursor.afterSeq seq }
        else some ⟨epoch, seq⟩
    | none => some ⟨epoch, seq⟩)

/-- `update_cursors`: the cursors, and the epochs of the snapshots. -/
def updateCursors (frame : WireFrame) (cursors : String → Option Cursor)
    (slotEpochs : String → Option Uuid) : (String → Option Cursor) × (String → Option Uuid) :=
  match frame with
  | .event port daemonEpoch seq => (advanceCursor cursors port daemonEpoch seq, slotEpochs)
  | .snapshot port daemonEpoch => (cursors, Function.update slotEpochs port (some daemonEpoch))
  | .ready port headSeq =>
      match slotEpochs port with
      | some epoch => (advanceCursor cursors port epoch headSeq, slotEpochs)
      | none => (cursors, slotEpochs)
  | _ => (cursors, slotEpochs)

/-- `HashMap::retain` -/
def retain {α : Type} (ports : List String) (map : String → Option α) : String → Option α :=
  fun port => if port ∈ ports then map port else none

/-- Where `run_worker` is. -/
inductive Phase
  | connecting
  | backingOff
  | sayingHello
  | attaching
  | connected (attachRequestId : Uuid)
  | draining (reason : String)
  | ended
  deriving DecidableEq

/-- What leaves the worker; commands are named by their place in the queue, connections by
their number. -/
inductive Output
  | transportConnected (generation : ℕ)
  | disconnected (reason : String)
  | frame (frame : WireFrame)
  | sendRejected (index : ℕ) (reason : String)
  | attached (subscriptions : List Subscription)
  /-- A message handed to the socket; whether all of it was taken. -/
  | wrote (index connection : ℕ) (complete : Bool)

structure Worker (Message : Type) where
  ports : List String
  cursors : String → Option Cursor
  slotEpochs : String → Option Uuid
  generation : ℕ
  /-- in milliseconds -/
  backoff : ℕ
  phase : Phase
  /-- Everything which was ever put into the queue. -/
  queued : List (NetworkCommand Message)
  /-- So many commands were taken from it. -/
  taken : ℕ
  hasSenders : Bool
  hasReceiver : Bool
  /-- So many connections were made. -/
  connections : ℕ
  trace : List Output

inductive Act (Message : Type)
  | queue (command : NetworkCommand Message)
  | dropSenders
  | dropReceiver
  | connect (error : Option String)
  | sleepEnds
  | hello (error : Option String)
  | attach (requestId : Uuid) (error : Option String)
  | receive (frame : WireFrame)
  /-- A frame or a heartbeat which ends the connection. -/
  | fail (reason : String)
  /-- The next command, with the error of its write. -/
  | take (error : Option String)

namespace Worker

variable {Message : Type}

def start (ports : List String) (cursors : String → Option Cursor) : Worker Message where
  ports := ports
  cursors := cursors
  slotEpochs := fun _ => none
  generation := 0
  backoff := 250
  phase := .connecting
  queued := []
  taken := 0
  hasSenders := true
  hasReceiver := true
  connections := 0
  trace := []

def emit (output : Output) (w : Worker Message) : Worker Message :=
  { w with trace := w.trace ++ [output] }

def enter (phase : Phase) (w : Worker Message) : Worker Message := { w with phase := phase }

/-- `generation.wrapping_add(1).max(1)` -/
def nextGeneration (generation : ℕ) : ℕ := max ((generation + 1) % 2 ^ 64) 1

/-- The arms of `Reconfigure`. -/
def replacePorts (replacement : List String) (w : Worker Message) : Worker Message :=
  { w with
    ports := replacement
    cursors := retain replacement w.cursors
    slotEpochs := retain replacement w.slotEpochs }

def doubleBackoff (w : Worker Message) : Worker Message :=
  { w with backoff := min (w.backoff * 2) 5000 }

def notQueued : String := "not connected; input was not queued"

/-- A command while a connection is made. -/
def takeConnecting (index : ℕ) (command : NetworkCommand Message) (w : Worker Message) :
    Worker Message :=
  match command with
  | .shutdown => w.enter .ended
  | .reconnect _ => w
  | .reconfigure replacement => w.replacePorts replacement
  | .send _ _ => w.emit (.sendRejected index notQueued)

/-- A command during the pause behind a failed attempt. -/
def takeBackingOff (index : ℕ) (command : NetworkCommand Message) (w : Worker Message) :
    Worker Message :=
  match command with
  | .shutdown => w.enter .ended
  | .reconnect _ => w.doubleBackoff.enter .connecting
  | .reconfigure replacement => (w.replacePorts replacement).doubleBackoff.enter .connecting
  | .send _ _ => w.emit (.sendRejected index notQueued)

/-- A command on a connection. -/
def takeConnected (index : ℕ) (command : NetworkCommand Message) (error : Option String)
    (w : Worker Message) : Worker Message :=
  match command with
  | .shutdown => w.enter .ended
  | .reconnect reason => w.enter (.draining reason)
  | .reconfigure replacement =>
      (w.replacePorts replacement).enter (.draining "configured Port set changed")
  | .send expected _ =>
      if expected ≠ w.generation then
        w.emit (.sendRejected index "connection changed; stale input was not sent")
      else
        match error with
        | none => w.emit (.wrote index w.connections true)
        | some error =>
            (w.emit (.wrote index w.connections false)).enter
              (.draining s!"WebSocket send failed: {error}")

/-- A command behind a lost connection. -/
def takeDraining (index : ℕ) (command : NetworkCommand Message) (w : Worker Message) :
    Worker Message :=
  match command with
  | .shutdown => w.enter .ended
  | .reconnect _ => w
  | .reconfigure replacement => w.replacePorts replacement
  | .send _ _ => w.emit (.sendRejected index "connection dropped; pending input was not sent")

/-- The next command of the queue, or what an empty queue means. -/
def take (error : Option String) (w : Worker Message) : Option (Worker Message) :=
  match w.queued[w.taken]? with
  | some command =>
      let rest := { w with taken := w.taken + 1 }
      match w.phase with
      | .connecting => some (rest.takeConnecting w.taken command)
      | .backingOff => some (rest.takeBackingOff w.taken command)
      | .connected _ => some (rest.takeConnected w.taken command error)
      | .draining _ => some (rest.takeDraining w.taken command)
      | _ => none
  | none =>
      match w.phase with
      | .draining reason => some ((w.emit (.disconnected reason)).enter .connecting)
      | .connecting => if w.hasSenders then none else some (w.enter .ended)
      | .backingOff => if w.hasSenders then none else some (w.enter .ended)
      | .connected _ => if w.hasSenders then none else some (w.enter .ended)
      | _ => none

def connect (error : Option String) (w : Worker Message) : Worker Message :=
  match error with
  | some reason => (w.emit (.disconnected reason)).enter .backingOff
  | none =>
      let connected := ({ w with
        generation := nextGeneration w.generation
        backoff := 250
        connections := w.connections + 1 } : Worker Message).emit
          (.transportConnected (nextGeneration w.generation))
      connected.enter (if w.hasReceiver then .sayingHello else .ended)

/-- A frame is passed on, and may end the connection. -/
def receiveFrame (frame : WireFrame) (attachRequestId : Uuid) (w : Worker Message) :
    Worker Message :=
  let (cursors, slotEpochs) := updateCursors frame w.cursors w.slotEpochs
  let updated := ({ w with cursors := cursors, slotEpochs := slotEpochs } : Worker Message).emit
    (.frame frame)
  if w.hasReceiver then
    match reconnectDirective frame attachRequestId with
    | none => updated
    | some (.preserveCursors reason) => updated.enter (.draining reason)
    | some (.resetCursors reason) =>
        { updated with cursors := fun _ => none, slotEpochs := fun _ => none }.enter
          (.draining reason)
  else updated.enter .ended

def step : Act Message → Worker Message → Option (Worker Message)
  | .queue command, w =>
      if w.hasSenders ∧ w.phase ≠ .ended then some { w with queued := w.queued ++ [command] }
      else none
  | .dropSenders, w => some { w with hasSenders := false }
  | .dropReceiver, w => some { w with hasReceiver := false }
  | .connect error, w => if w.phase = .connecting then some (w.connect error) else none
  | .sleepEnds, w =>
      if w.phase = .backingOff then some (w.doubleBackoff.enter .connecting) else none
  | .hello error, w =>
      if w.phase = .sayingHello then
        match error with
        | none => some (w.enter .attaching)
        | some error =>
            some ((w.emit (.disconnected s!"WebSocket hello failed: {error}")).enter .connecting)
      else none
  | .attach requestId error, w =>
      if w.phase = .attaching then
        match error with
        | none =>
            some ((w.emit (.attached (buildSubscriptions w.ports w.cursors))).enter
              (.connected requestId))
        | some error =>
            some ((w.emit (.disconnected s!"WebSocket attach failed: {error}")).enter .connecting)
      else none
  | .receive frame, w =>
      match w.phase with
      | .connected attachRequestId => some (w.receiveFrame frame attachRequestId)
      | _ => none
  | .fail reason, w =>
      match w.phase with
      | .connected _ => some (w.enter (.draining reason))
      | _ => none
  | .take error, w => w.take error

end Worker

end SerialPlatform.Console
