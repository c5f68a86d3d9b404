import SerialPlatform.Protocol

/-!
# The connection of the desktop client

`SerialClient` keeps one socket to the daemon and `ReconnectLoop` retries when it is
lost.  Both are driven by callbacks: a socket event, a timer or an answer runs one
handler, and the promise callbacks which it sets off run before the next event.  A
socket is named by its place among the sockets made so far; calls, requests, timers
and status objects are numbered from one counter.
-/

namespace SerialPlatform.Desktop

abbrev SocketId := ℕ

abbrev RequestId := ℕ

def serialProtocolVersion : ℕ := 9

def minDelayMs : ℕ := 1500

def maxDelayMs : ℕ := 10000

/-! ## What the daemon sends -/

/-- A `StatusResponse`, with the name and the epoch of each port. -/
structure StatusResponse where
  serverId : Uuid
  daemonEpoch : Uuid
  protocolVersion : ℕ
  ports : List (String × Uuid)
  deriving DecidableEq

/-- The part of a command result which the handshake reads. -/
inductive Reply where
  | helloAccepted (actor : Option Actor)
  | attached (ports : Option (List String))
  | other
  deriving DecidableEq

/-- The Hello was accepted for this actor. -/
def Reply.confirms (actor : Actor) : Reply → Bool
  | .helloAccepted (some own) => own.id = actor.id
  | _ => false

inductive ServerFrame where
  /-- `decodeFrame` throws. -/
  | undecodable
  /-- An RX or TX frame -/
  | data (port : String) (daemonEpoch : Uuid)
  | welcome (protocolVersion : ℕ) (serverId daemonEpoch : Uuid) (actor : Option Actor)
  | snapshot (port : Option String) (daemonEpoch : Uuid)
  | timeline (port : String) (daemonEpoch : Uuid)
  | result (requestId : RequestId) (reply : Reply)
  | error (requestId : Option RequestId) (code : Option String)
  | gap (port : String)
  | lagged (port : String)
  | replayBegin (port : String)
  | ready (port : String)
  deriving DecidableEq

/-! ## What the client sends -/

inductive ClientMessage where
  | hello (requestId : RequestId)
  | attach (requestId : RequestId) (ports : List String)
  | other (requestId : RequestId)
  deriving DecidableEq

inductive SocketAction where
  | send (message : ClientMessage)
  | close
  | terminate
  deriving DecidableEq

/-! ## The records of the client -/

/-- The status a refresh has installed; its number tells two such objects apart. -/
structure Status where
  identity : ℕ
  response : StatusResponse
  deriving DecidableEq

def Status.ports (status : Status) : List String :=
  status.response.ports.map Prod.fst

structure PendingRequest where
  requestId : RequestId
  /-- The socket the message went out on. -/
  socket : SocketId
  outcomeUncertainOnTransportLoss : Bool
  outcomeUncertainErrorCodes : List String
  deriving DecidableEq

structure PendingWelcome where
  socket : SocketId
  expectedServerId : Uuid
  expectedDaemonEpoch : Uuid
  deriving DecidableEq

/-- How the promise of a request was settled. -/
inductive Outcome where
  | resolved (reply : Reply)
  | rejected
  /-- `HumanCommandOutcomeUncertainError` -/
  | uncertain
  deriving DecidableEq

structure Settlement where
  requestId : RequestId
  socket : SocketId
  outcome : Outcome
  deriving DecidableEq

/-- How `rejectPending` settles a request. -/
def PendingRequest.lost (request : PendingRequest) : Settlement where
  requestId := request.requestId
  socket := request.socket
  outcome := if request.outcomeUncertainOnTransportLoss then .uncertain else .rejected

structure RetryTimer where
  id : ℕ
  generation : ℕ
  delay : ℕ
  deriving DecidableEq

structure ReconnectLoop where
  /-- The number of the timer which `schedule` has set. -/
  timer : Option ℕ
  generation : ℕ
  runningGeneration : Option ℕ
  failures : ℕ
  deriving DecidableEq

/-- The caller of `refresh` and `openSocket`. -/
inductive Caller where
  | start
  /-- `ReconnectLoop.run` of a generation, through `reconnectAttempt` -/
  | run (generation : ℕ)
  | reconnectSocket
  deriving DecidableEq

/-- The promise `openSocket` awaits, or what has become of it. -/
inductive Awaiting where
  /-- The `open` event of the socket -/
  | handshake
  | opened
  /-- `Promise.all([welcome, helloResult])` -/
  | welcome (hello : RequestId) (welcomed : Option Actor) (accepted : Option Reply)
  | greeted (actor : Actor) (accepted : Reply)
  | attach (actor : Actor) (request : RequestId)
  | attached (actor : Actor) (result : Reply)
  | failed
  deriving DecidableEq

/-- The promise is settled and its callback waits to run. -/
def Awaiting.isSettled : Awaiting → Bool
  | .opened | .greeted _ _ | .attached _ _ | .failed => true
  | .handshake | .welcome _ _ _ | .attach _ _ => false

inductive Stage where
  /-- `refresh` awaits the ports and the configuration. -/
  | configuring
  /-- `refresh` awaits the human history. -/
  | loadingHistory
  | opening (socket : SocketId) (expected : Status) (awaiting : Awaiting)
  deriving DecidableEq

/-- The stage once the awaited promise is rejected. -/
def Stage.fail : Stage → Stage
  | .opening socket expected _ => .opening socket expected .failed
  | stage => stage

/-- The `open` event of a socket resolves the promise which waits for it. -/
def Stage.opens (socket : SocketId) : Stage → Stage
  | .opening own expected .handshake =>
      if own = socket then .opening own expected .opened else .opening own expected .handshake
  | stage => stage

/-- The promise of `waitForWelcome` is resolved. -/
def Stage.welcomed (socket : SocketId) (actor : Actor) : Stage → Stage
  | .opening own expected (.welcome hello none accepted) =>
      if own = socket then
        .opening own expected
          (match accepted with
          | none => .welcome hello (some actor) none
          | some reply => .greeted actor reply)
      else .opening own expected (.welcome hello none accepted)
  | stage => stage

/-- The promise of a request is resolved. -/
def Stage.answered (requestId : RequestId) (reply : Reply) : Stage → Stage
  | .opening socket expected (.welcome hello welcomed none) =>
      if hello = requestId then
        .opening socket expected
          (match welcomed with
          | none => .welcome hello none (some reply)
          | some actor => .greeted actor reply)
      else .opening socket expected (.welcome hello welcomed none)
  | .opening socket expected (.attach actor attach) =>
      if attach = requestId then .opening socket expected (.attached actor reply)
      else .opening socket expected (.attach actor attach)
  | stage => stage

/-- A `reconnectAttempt` or the `openSocket` of `reconnectSocket`, not yet returned. -/
structure Call where
  id : ℕ
  caller : Caller
  version : ℕ
  stage : Stage
  deriving DecidableEq

def Call.isSettled (call : Call) : Bool :=
  match call.stage with
  | .opening _ _ awaiting => awaiting.isSettled
  | _ => false

inductive ReadyState where
  | connecting
  | opened
  | closing
  | closed
  deriving DecidableEq

structure WebSocket where
  readyState : ReadyState
  /-- The `message`, `close` and `error` listeners of `openSocket` are attached. -/
  listening : Bool
  opener : Caller
  deriving DecidableEq

/-- The client with the timers, sockets and calls of its event loop. -/
structure SerialClient where
  status : Status
  socket : Option SocketId
  readySocket : Option SocketId
  stopped : Bool
  connectionVersion : ℕ
  actor : Option Actor
  pending : List PendingRequest
  pendingWelcome : Option PendingWelcome
  reconnectLoop : ReconnectLoop
  timers : List RetryTimer
  sockets : List WebSocket
  calls : List Call
  nextId : ℕ
  settlements : List Settlement
  outbox : List (SocketId × SocketAction)
  deriving DecidableEq

namespace SerialClient

/-! ## `ReconnectLoop` -/

def schedule (client : SerialClient) : SerialClient :=
  if client.reconnectLoop.timer.isSome ∨
      client.reconnectLoop.runningGeneration = some client.reconnectLoop.generation then client
  else
    { client with
      reconnectLoop := { client.reconnectLoop with timer := some client.nextId }
      timers := client.timers ++ [{
        id := client.nextId
        generation := client.reconnectLoop.generation
        delay := min maxDelayMs (minDelayMs * 2 ^ min client.reconnectLoop.failures 10) }]
      nextId := client.nextId + 1 }

def cancel (client : SerialClient) : SerialClient :=
  { client with
    reconnectLoop := {
      client.reconnectLoop with
      generation := client.reconnectLoop.generation + 1
      timer := none
      failures := 0 }
    timers := client.timers.filter fun timer => client.reconnectLoop.timer ≠ some timer.id }

/-- `run` once its attempt has returned or thrown. -/
def runEnds (generation : ℕ) (succeeded : Bool) (client : SerialClient) : SerialClient :=
  let current := generation = client.reconnectLoop.generation
  let failures :=
    if current then if succeeded then 0 else client.reconnectLoop.failures + 1
    else client.reconnectLoop.failures
  let runningGeneration :=
    if client.reconnectLoop.runningGeneration = some generation then none
    else client.reconnectLoop.runningGeneration
  let client : SerialClient := { client with
    reconnectLoop := {
      client.reconnectLoop with failures := failures, runningGeneration := runningGeneration } }
  if current ∧ !succeeded then client.schedule else client

/-! ## Requests and sockets -/

def mapStages (change : Stage → Stage) (client : SerialClient) : SerialClient :=
  { client with calls := client.calls.map fun call => { call with stage := change call.stage } }

/-- The promise which these calls await is rejected. -/
def failCalls (waits : Stage → Bool) (client : SerialClient) : SerialClient :=
  client.mapStages fun stage => if waits stage then stage.fail else stage

def awaitsRequest (requestId : RequestId) : Stage → Bool
  | .opening _ _ (.welcome hello _ none) => hello = requestId
  | .opening _ _ (.attach _ request) => request = requestId
  | _ => false

def awaitsWelcome (socket : SocketId) : Stage → Bool
  | .opening own _ (.welcome _ none _) => own = socket
  | _ => false

def rejectPending (client : SerialClient) : SerialClient :=
  { client.failCalls fun stage => client.pending.any fun request => awaitsRequest request.requestId stage with
    pending := []
    settlements := client.settlements ++ client.pending.map PendingRequest.lost }

def rejectSocketHandshake (socket : SocketId) (client : SerialClient) : SerialClient :=
  match client.pendingWelcome with
  | none => client
  | some welcome =>
      if welcome.socket = socket then
        { client.failCalls (awaitsWelcome socket) with pendingWelcome := none }
      else client

def readyState (client : SerialClient) (socket : SocketId) : ReadyState :=
  match client.sockets[socket]? with
  | none => .closed
  | some webSocket => webSocket.readyState

def listening (client : SerialClient) (socket : SocketId) : Bool :=
  match client.sockets[socket]? with
  | none => false
  | some webSocket => webSocket.listening

def setReadyState (socket : SocketId) (state : ReadyState) (client : SerialClient) : SerialClient :=
  { client with sockets := client.sockets.modify socket fun webSocket =>
      { webSocket with readyState := state } }

def setListening (socket : SocketId) (listening : Bool) (client : SerialClient) : SerialClient :=
  { client with sockets := client.sockets.modify socket fun webSocket =>
      { webSocket with listening := listening } }

/-- `socket.close()` -/
def closeSocket (socket : SocketId) (client : SerialClient) : SerialClient :=
  if client.readyState socket = .closed then client
  else { client.setReadyState socket .closing with outbox := client.outbox ++ [(socket, .close)] }

/-- `socket.terminate()` -/
def terminate (socket : SocketId) (client : SerialClient) : SerialClient :=
  if client.readyState socket = .closed then client
  else { client.setReadyState socket .closing with outbox := client.outbox ++ [(socket, .terminate)] }

/-- `control` on a socket: the message goes out if the socket is current and open. -/
def control (socket : SocketId) (message : RequestId → ClientMessage) (uncertain : Bool)
    (codes : List String) (client : SerialClient) : Option SerialClient :=
  if client.socket = some socket ∧ client.readyState socket = .opened then
    some { client with
      pending := client.pending ++ [{
        requestId := client.nextId
        socket := socket
        outcomeUncertainOnTransportLoss := uncertain
        outcomeUncertainErrorCodes := codes }]
      nextId := client.nextId + 1
      outbox := client.outbox ++ [(socket, .send (message client.nextId))] }
  else none

/-! ## `openSocket` -/

def setStage (id : ℕ) (stage : Stage) (client : SerialClient) : SerialClient :=
  { client with calls := client.calls.map fun call =>
      if call.id = id then { call with stage := stage } else call }

def endCall (id : ℕ) (client : SerialClient) : SerialClient :=
  { client with calls := client.calls.filter fun call => call.id ≠ id }

/-- The caller of `openSocket` goes on after it has returned. -/
def callerReturns (caller : Caller) (client : SerialClient) : SerialClient :=
  match caller with
  | .run generation => client.runEnds generation true
  | .start | .reconnectSocket => client

/-- The caller of `openSocket` goes on after it has thrown. -/
def callerThrows (caller : Caller) (client : SerialClient) : SerialClient :=
  match caller with
  | .run generation => client.runEnds generation false
  | .reconnectSocket => if client.stopped then client else client.schedule
  | .start => client

/-- `openSocket` up to its first `await`, for a call which is on its way. -/
def beginOpen (call : Call) (client : SerialClient) : SerialClient :=
  if client.stopped then (client.endCall call.id).callerReturns call.caller
  else
    { client.setStage call.id (.opening client.sockets.length client.status .handshake) with
      sockets := client.sockets ++ [⟨.connecting, false, call.caller⟩]
      socket := some client.sockets.length }

/-- The `catch` of `openSocket` -/
def openThrows (call : Call) (socket : SocketId) (client : SerialClient) : SerialClient :=
  let client := (client.endCall call.id)
  let client : SerialClient := { client with
    socket := if client.socket = some socket then none else client.socket
    readySocket := if client.readySocket = some socket then none else client.readySocket
    actor := none }
  let client := ((client.rejectSocketHandshake socket).rejectPending).setListening socket false
  (client.terminate socket).callerThrows call.caller

/-- `openSocket` after the `open` event -/
def sayHello (call : Call) (socket : SocketId) (expected : Status) (client : SerialClient) : SerialClient :=
  if client.stopped ∨ call.version ≠ client.connectionVersion ∨ client.socket ≠ some socket then
    client.openThrows call socket
  else
    let client := client.setListening socket true
    if client.pendingWelcome.isSome then client.openThrows call socket
    else
      let client : SerialClient := { client with
        pendingWelcome := some ⟨socket, expected.response.serverId, expected.response.daemonEpoch⟩ }
      match client.control socket .hello false [] with
      | none => client.setStage call.id (.opening socket expected .failed)
      | some sent => sent.setStage call.id (.opening socket expected (.welcome client.nextId none none))

/-- `openSocket` after the Welcome and the result of the Hello -/
def sendAttach (call : Call) (socket : SocketId) (expected : Status) (actor : Actor)
    (accepted : Reply) (client : SerialClient) : SerialClient :=
  if !accepted.confirms actor then client.openThrows call socket
  else if client.status.identity ≠ expected.identity then client.openThrows call socket
  else
    match client.control socket (.attach · expected.ports) false [] with
    | none => client.setStage call.id (.opening socket expected .failed)
    | some sent => sent.setStage call.id (.opening socket expected (.attach actor client.nextId))

/-- `openSocket` after the result of the Attach -/
def becomeReady (call : Call) (socket : SocketId) (expected : Status) (actor : Actor)
    (result : Reply) (client : SerialClient) : SerialClient :=
  match result with
  | .attached (some ports) =>
      if ports.mergeSort ≠ expected.ports.mergeSort then client.openThrows call socket
      else if client.stopped ∨ call.version ≠ client.connectionVersion ∨ client.socket ≠ some socket ∨
          client.status.identity ≠ expected.identity then
        client.openThrows call socket
      else
        ({ client.endCall call.id with
          actor := some actor
          readySocket := some socket }).callerReturns call.caller
  | _ => client.openThrows call socket

/-- The callback of a settled promise of `openSocket` runs. -/
def resume (call : Call) (client : SerialClient) : SerialClient :=
  match call.stage with
  | .opening socket expected .opened => client.sayHello call socket expected
  | .opening socket expected (.greeted actor accepted) =>
      client.sendAttach call socket expected actor accepted
  | .opening socket expected (.attached actor result) =>
      client.becomeReady call socket expected actor result
  | .opening socket _ .failed => client.openThrows call socket
  | _ => client

/-! ## Handlers -/

/-- `refresh` with this response: it throws or installs a new status. -/
def install (response : StatusResponse) (client : SerialClient) : Option SerialClient :=
  if response.protocolVersion ≠ serialProtocolVersion then none
  else if response.ports.all (·.2 = response.daemonEpoch) then
    some { client with status := ⟨client.nextId, response⟩, nextId := client.nextId + 1 }
  else none

/-- The timer of the reconnect loop expires. -/
def timerExpires (timer : RetryTimer) (client : SerialClient) : SerialClient :=
  let client : SerialClient := { client with
    timers := client.timers.filter (·.id ≠ timer.id)
    reconnectLoop := { client.reconnectLoop with timer := none } }
  if timer.generation ≠ client.reconnectLoop.generation then client
  else
    { client with
      reconnectLoop := { client.reconnectLoop with runningGeneration := some timer.generation }
      calls := client.calls ++ [{
        id := client.nextId
        caller := .run timer.generation
        version := client.connectionVersion
        stage := .configuring }]
      nextId := client.nextId + 1 }

/-- The configuration has arrived for a `refresh` of `reconnectAttempt`, or could not be read. -/
def configured (call : Call) (response : Option StatusResponse) (client : SerialClient) :
    SerialClient :=
  match response.bind fun response => client.install response with
  | none => (client.endCall call.id).callerThrows call.caller
  | some refreshed => refreshed.setStage call.id .loadingHistory

/-- `reconnectAttempt` after its `refresh` -/
def historyLoaded (call : Call) (client : SerialClient) : SerialClient :=
  if client.stopped ∨ call.version ≠ client.connectionVersion then
    (client.endCall call.id).callerReturns call.caller
  else client.beginOpen call

def reconnectSocket (client : SerialClient) : SerialClient :=
  let client := { client with connectionVersion := client.connectionVersion + 1 }.cancel
  let abandoned := client.socket
  let client : SerialClient := { client with socket := none, readySocket := none }
  let client : SerialClient := match abandoned with
    | none => client
    | some socket => (client.closeSocket socket).rejectSocketHandshake socket
  let client : SerialClient := { client.rejectPending with actor := none }
  let call : Call := ⟨client.nextId, .reconnectSocket, client.connectionVersion, .configuring⟩
  { client with calls := client.calls ++ [call], nextId := client.nextId + 1 }.beginOpen call

def stop (client : SerialClient) : SerialClient :=
  let client : SerialClient := { client with
    stopped := true
    connectionVersion := client.connectionVersion + 1 }.cancel
  let abandoned := client.socket
  let client : SerialClient := { client with socket := none, readySocket := none }
  let client : SerialClient := match abandoned with
    | none => client
    | some socket =>
        let client :=
          if client.readyState socket = .opened then client.closeSocket socket
          else client.terminate socket
        client.rejectSocketHandshake socket
  { client.rejectPending with actor := none }

def onSocketClose (socket : SocketId) (client : SerialClient) : SerialClient :=
  if client.stopped ∨ client.socket ≠ some socket then client
  else
    let client : SerialClient := { client with
      socket := none
      readySocket := if client.readySocket = some socket then none else client.readySocket }
    ({ (client.rejectSocketHandshake socket).rejectPending with actor := none }).schedule

/-- The `error` listener of `openSocket` -/
def onSocketError (socket : SocketId) (client : SerialClient) : SerialClient :=
  if client.readySocket ≠ some socket then
    (client.rejectSocketHandshake socket).rejectPending
  else client

/-- The promise of a pending request is resolved or rejected. -/
def settleRequest (request : PendingRequest) (outcome : Outcome) (client : SerialClient) :
    SerialClient :=
  let client : SerialClient := { client with
    pending := client.pending.filter (·.requestId ≠ request.requestId)
    settlements := client.settlements ++ [⟨request.requestId, request.socket, outcome⟩] }
  match outcome with
  | .rejected | .uncertain => client.failCalls (awaitsRequest request.requestId)
  | .resolved reply => client.mapStages (Stage.answered request.requestId reply)

/-- The promise of `waitForWelcome` is resolved. -/
def resolveWelcome (socket : SocketId) (actor : Actor) (client : SerialClient) : SerialClient :=
  { client.mapStages (Stage.welcomed socket actor) with pendingWelcome := none }

/-- `decodeFrame`, `appendEvent` and `handleControl`; `none` where they throw. -/
def receive (socket : SocketId) (frame : ServerFrame) (client : SerialClient) :
    Option SerialClient :=
  match frame with
  | .undecodable => none
  | .data _ daemonEpoch | .timeline _ daemonEpoch | .snapshot (some _) daemonEpoch =>
      if daemonEpoch = client.status.response.daemonEpoch then some client else none
  | .snapshot none _ => none
  | .welcome protocolVersion serverId daemonEpoch actor =>
      match client.pendingWelcome, actor with
      | some welcome, some actor =>
          if welcome.socket = socket ∧ protocolVersion = serialProtocolVersion ∧
              serverId = welcome.expectedServerId ∧ daemonEpoch = welcome.expectedDaemonEpoch ∧
              actor.kind = .human then
            some (client.resolveWelcome socket actor)
          else none
      | _, _ => none
  | .result requestId reply =>
      match client.pending.find? (·.requestId = requestId) with
      | none => some client
      | some request => some (client.settleRequest request (.resolved reply))
  | .error none _ => none
  | .error (some requestId) code =>
      match client.pending.find? (·.requestId = requestId) with
      | none => none
      | some request =>
          some (client.settleRequest request
            (if code.any fun code => request.outcomeUncertainErrorCodes.contains code then
              .uncertain
            else .rejected))
  | .gap _ | .lagged _ | .replayBegin _ | .ready _ => some client

def onSocketMessage (socket : SocketId) (frame : ServerFrame) (client : SerialClient) :
    SerialClient :=
  if client.socket ≠ some socket then client
  else
    match client.receive socket frame with
    | some client => client
    | none =>
        if client.readySocket = some socket then client.terminate socket
        else ((client.rejectSocketHandshake socket).rejectPending).terminate socket

end SerialClient

/-! ## The event loop -/

inductive Event where
  /-- A retry timer expires. -/
  | timer (id : ℕ)
  | configured (call : ℕ) (response : Option StatusResponse)
  | historyLoaded (call : ℕ)
  /-- A `refresh` outside the reconnect loop has read this response. -/
  | refreshed (response : StatusResponse)
  | opened (socket : SocketId)
  | error (socket : SocketId)
  | closed (socket : SocketId)
  | message (socket : SocketId) (frame : ServerFrame)
  /-- The time-out of a handshake step passes. -/
  | timeout (call : ℕ)
  /-- `send` reports that a message could not be sent. -/
  | sendFailed (requestId : RequestId)
  /-- Another method of the client sends a request. -/
  | request (uncertainOnLoss : Bool) (codes : List String)
  | reconnectSocket
  | stop
  /-- The callback of a settled promise of this call runs. -/
  | resume (call : ℕ)
  deriving DecidableEq

/-- Callbacks of settled promises go first; only the frames and the error of one read of
a socket follow each other without a pause. -/
def Event.waits : Event → Bool
  | .message _ _ | .error _ | .resume _ => false
  | _ => true

namespace SerialClient

def handshakeOf (socket : SocketId) : Stage → Bool
  | .opening own _ .handshake => own = socket
  | _ => false

def isWaiting : Stage → Bool
  | .opening _ _ awaiting => !awaiting.isSettled
  | _ => false

/-- `finish` without an error: the `open` event of the socket. -/
def socketOpens (socket : SocketId) (client : SerialClient) : SerialClient :=
  (client.setReadyState socket .opened).mapStages (Stage.opens socket)

def handle (event : Event) (client : SerialClient) : Option SerialClient :=
  match event with
  | .timer id => (client.timers.find? (·.id = id)).map client.timerExpires
  | .configured id response =>
      match client.calls.find? (·.id = id) with
      | some call =>
          if call.stage = .configuring then some (client.configured call response) else none
      | none => none
  | .historyLoaded id =>
      match client.calls.find? (·.id = id) with
      | some call =>
          if call.stage = .loadingHistory then some (client.historyLoaded call) else none
      | none => none
  | .refreshed response => client.install response
  | .opened socket =>
      if client.readyState socket = .connecting then some (client.socketOpens socket) else none
  | .error socket =>
      if client.listening socket then some (client.onSocketError socket)
      else some (client.failCalls (handshakeOf socket))
  | .closed socket =>
      if client.readyState socket = .closed then none
      else
        let client := client.setReadyState socket .closed
        if client.listening socket then some (client.onSocketClose socket)
        else some (client.failCalls (handshakeOf socket))
  | .message socket frame =>
      if client.listening socket ∧ client.readyState socket ≠ .closed then
        some (client.onSocketMessage socket frame)
      else none
  | .timeout id =>
      match client.calls.find? (·.id = id) with
      | some call =>
          if isWaiting call.stage then
            match call.stage with
            | .opening socket expected _ =>
                some (client.setStage id (.opening socket expected .failed))
            | _ => none
          else none
      | none => none
  | .sendFailed requestId =>
      (client.pending.find? (·.requestId = requestId)).map fun request =>
        client.settleRequest request
          (if request.outcomeUncertainOnTransportLoss then .uncertain else .rejected)
  | .request uncertainOnLoss codes =>
      client.socket.bind fun socket => client.control socket .other uncertainOnLoss codes
  | .reconnectSocket => some client.reconnectSocket
  | .stop => some client.stop
  | .resume id =>
      match client.calls.find? (·.id = id) with
      | some call => if call.isSettled then some (client.resume call) else none
      | none => none

/-- The next event is handled. -/
def step (event : Event) (client : SerialClient) : Option SerialClient :=
  if event.waits ∧ client.calls.any Call.isSettled then none else client.handle event

/-- The client after its first successful `start`. -/
def started (response : StatusResponse) (actor : Actor) : SerialClient where
  status := ⟨0, response⟩
  socket := some 0
  readySocket := some 0
  stopped := false
  connectionVersion := 1
  actor := some actor
  pending := []
  pendingWelcome := none
  reconnectLoop := ⟨none, 1, none, 0⟩
  timers := []
  sockets := [⟨.opened, true, .start⟩]
  calls := []
  nextId := 1
  settlements := []
  outbox := []

end SerialClient

end SerialPlatform.Desktop
