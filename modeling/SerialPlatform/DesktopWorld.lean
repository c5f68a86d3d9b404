import SerialPlatform.DesktopClient
import Mathlib.Logic.Function.Basic

/-!
# The desktop client and the daemon

One task of the daemon serves each socket of the client: it answers the messages in order
and spawns a live forwarder for each port that is attached.  A forwarder has its own
receiver of the port's events and ends when this lags behind; the connection stays.
-/

namespace SerialPlatform.Desktop

/-- `BROADCAST_QUEUE` -/
def broadcastQueue : ℕ := 2048

inductive ForwarderState where
  /-- `handle.attach` has subscribed; the forwarder is not spawned yet. -/
  | subscribed
  | running
  | ended
  deriving DecidableEq

/-- An entry of `subscriptions` -/
structure Subscription where
  port : String
  /-- The events which its receiver has not taken yet -/
  unread : ℕ
  state : ForwarderState
  deriving DecidableEq

/-- An Attach which is being dispatched -/
structure Attaching where
  requestId : RequestId
  attached : List String
  requested : List String
  deriving DecidableEq

/-- What `serve_socket` keeps for one connection, and what is on its way to the client. -/
structure Connection where
  /-- The messages of the client -/
  sent : List ClientMessage
  /-- How many of them have been read -/
  read : ℕ
  /-- `receive_hello` has returned. -/
  greeted : Bool
  attaching : Option Attaching
  /-- The frames which the task has yet to queue before it goes on -/
  sending : List ServerFrame
  subscriptions : List Subscription
  outbound : List ServerFrame
  /-- The `close` event of the client's socket is on its way. -/
  closing : Bool
  /-- `serve_socket` has returned. -/
  returned : Bool
  deriving DecidableEq

def Connection.new : Connection where
  sent := []
  read := 0
  greeted := false
  attaching := none
  sending := []
  subscriptions := []
  outbound := []
  closing := false
  returned := false

/-- What the task of a connection meets when it goes on -/
inductive Answer where
  /-- `issue_actor` -/
  | accepted (actor : Actor)
  /-- `handle.attach` returns a snapshot and these events, RX or TX (`true`) or other. -/
  | replay (gap : Bool) (events : List Bool)
  /-- The port or the command is refused; `found` tells whether the port is known. -/
  | refused (found : Bool) (code : Option String)
  | done
  deriving DecidableEq

/-- What a forwarder does with an event which it has received -/
inductive Forwarding where
  /-- The snapshot has the event already. -/
  | skipped
  | data
  | timeline
  /-- `encode_event` fails. -/
  | unencodable
  deriving DecidableEq

namespace Connection

/-- The frame of an event -/
def eventFrame (port : String) (daemonEpoch : Uuid) (data : Bool) : ServerFrame :=
  if data then .data port daemonEpoch else .timeline port daemonEpoch

/-- `send_attach` -/
def attachFrames (port : String) (daemonEpoch : Uuid) (gap : Bool) (events : List Bool) :
    List ServerFrame :=
  [.snapshot (some port) daemonEpoch] ++ (if gap then [.gap port] else []) ++
    (if events.isEmpty then [] else [.replayBegin port]) ++
    events.map (eventFrame port daemonEpoch) ++ [.ready port]

/-- The task has returned, its forwarders are aborted and the stream ends. -/
def finish (connection : Connection) : Connection :=
  { connection with
    attaching := none
    sending := []
    subscriptions := []
    closing := true
    returned := true }

/-- `spawn_live_forwarder` -/
def spawn (port : String) (connection : Connection) : Connection :=
  { connection with subscriptions := connection.subscriptions.map fun subscription =>
      if subscription.port = port ∧ subscription.state = .subscribed then
        { subscription with state := .running }
      else subscription }

/-- The port whose replay has been queued waits for its forwarder. -/
def isSubscribed (port : String) (connection : Connection) : Bool :=
  connection.subscriptions.any fun subscription =>
    subscription.port = port ∧ subscription.state = .subscribed

/-- `dispatch_message` for an Attach, port by port -/
def attach (daemonEpoch : Uuid) (attaching : Attaching) (answer : Answer)
    (connection : Connection) : Option Connection :=
  match attaching.requested with
  | [] =>
      some { connection with
        attaching := none
        sending := [.result attaching.requestId (.attached (some attaching.attached))] }
  | port :: ports =>
      if connection.isSubscribed port then
        some { connection.spawn port with
          attaching := some ⟨attaching.requestId, attaching.attached ++ [port], ports⟩ }
      else
        let others := connection.subscriptions.filter (·.port ≠ port)
        match answer with
        | .replay gap events =>
            some { connection with
              subscriptions := others ++ [⟨port, 0, .subscribed⟩]
              sending := attachFrames port daemonEpoch gap events }
        | .refused found code =>
            some { connection with
              subscriptions := if found then others else connection.subscriptions
              attaching := none
              sending := [.error (some attaching.requestId) code] }
        | _ => none

/-- `receive_hello` and `dispatch_message` for the next message -/
def receive (serverId daemonEpoch : Uuid) (message : ClientMessage) (answer : Answer)
    (connection : Connection) : Option Connection :=
  let connection : Connection := { connection with read := connection.read + 1 }
  if connection.greeted then
    match message, answer with
    | .hello requestId, .refused _ code =>
        some { connection with sending := [.error (some requestId) code] }
    | .attach requestId ports, .done =>
        some { connection with attaching := some ⟨requestId, [], ports⟩ }
    | .other requestId, .done =>
        some { connection with sending := [.result requestId .other] }
    | .other requestId, .refused _ code =>
        some { connection with sending := [.error (some requestId) code] }
    | _, _ => none
  else
    match message, answer with
    | .hello requestId, .accepted actor =>
        some { connection with
          greeted := true
          sending := [.welcome serialProtocolVersion serverId daemonEpoch (some actor),
            .result requestId (.helloAccepted (some actor))] }
    | .hello requestId, .refused _ code | .attach requestId _, .refused _ code
    | .other requestId, .refused _ code =>
        let refusal : ServerFrame := .error (some requestId) code
        some { connection with outbound := connection.outbound ++ [refusal] }.finish
    | _, _ => none

/-- The task of the connection takes its next step. -/
def serve (serverId daemonEpoch : Uuid) (answer : Answer) (connection : Connection) :
    Option Connection :=
  if connection.returned then none
  else
    match connection.sending with
    | frame :: frames =>
        some { connection with sending := frames, outbound := connection.outbound ++ [frame] }
    | [] =>
        match connection.attaching with
        | some attaching => connection.attach daemonEpoch attaching answer
        | none =>
            connection.sent[connection.read]?.bind fun message =>
              connection.receive serverId daemonEpoch message answer

/-- An event of the port is broadcast. -/
def emit (port : String) (connection : Connection) : Connection :=
  { connection with subscriptions := connection.subscriptions.map fun subscription =>
      if subscription.port = port ∧ subscription.state ≠ .ended then
        { subscription with unread := subscription.unread + 1 }
      else subscription }

def setSubscription (changed : Subscription) (connection : Connection) : Connection :=
  { connection with subscriptions := connection.subscriptions.map fun subscription =>
      if subscription.port = changed.port then changed else subscription }

/-- One turn of the loop of a live forwarder -/
def forward (daemonEpoch : Uuid) (port : String) (forwarding : Forwarding)
    (connection : Connection) : Option Connection :=
  (connection.subscriptions.find? fun subscription =>
    subscription.port = port ∧ subscription.state = .running).bind fun subscription =>
      if subscription.unread = 0 then none
      else if broadcastQueue < subscription.unread then
        some { connection.setSubscription { subscription with state := .ended } with
          outbound := connection.outbound ++ [.lagged port] }
      else
        let taken : Subscription := { subscription with unread := subscription.unread - 1 }
        match forwarding with
        | .skipped => some (connection.setSubscription taken)
        | .data =>
            some { connection.setSubscription taken with
              outbound := connection.outbound ++ [eventFrame port daemonEpoch true] }
        | .timeline =>
            some { connection.setSubscription taken with
              outbound := connection.outbound ++ [eventFrame port daemonEpoch false] }
        | .unencodable => some (connection.setSubscription { taken with state := .ended })

/-- What the client does to its socket reaches the connection. -/
def take (action : SocketAction) (connection : Connection) : Connection :=
  match action with
  | .send message => { connection with sent := connection.sent ++ [message] }
  | .close => connection
  | .terminate => { connection with closing := true }

end Connection

structure World where
  client : SerialClient
  connection : SocketId → Connection
  serverId : Uuid
  daemonEpoch : Uuid

inductive Happening where
  /-- A callback of the client which is not about a frame -/
  | client (event : Event)
  /-- The next frame reaches the client. -/
  | deliver (socket : SocketId)
  | serve (socket : SocketId) (answer : Answer)
  | emit (port : String)
  | forward (socket : SocketId) (port : String) (forwarding : Forwarding)
  /-- The connection is closed or lost. -/
  | drop (socket : SocketId)
  deriving DecidableEq

namespace World

def setConnection (socket : SocketId) (connection : Connection) (world : World) : World :=
  { world with connection := Function.update world.connection socket connection }

/-- The actions which the client has added to its outbox reach their connections. -/
def advance (client : SerialClient) (world : World) : World :=
  let actions := client.outbox.drop world.client.outbox.length
  { world with
    client := client
    connection := fun socket =>
      (actions.filter fun action => action.1 = socket).foldl
        (fun connection action => connection.take action.2) (world.connection socket) }

/-- Nothing more reaches the client on a socket which has closed. -/
def forget (event : Event) (world : World) : World :=
  match event with
  | .closed socket =>
      world.setConnection socket
        { world.connection socket with outbound := [], closing := false }
  | _ => world

def step (happening : Happening) (world : World) : Option World :=
  match happening with
  | .client event =>
      match event with
      | .message _ _ => none
      | _ => (world.client.step event).map fun client => (world.forget event).advance client
  | .deliver socket =>
      match (world.connection socket).outbound with
      | [] => none
      | frame :: frames =>
          (world.client.step (.message socket frame)).map fun client =>
            (world.setConnection socket
              { world.connection socket with outbound := frames }).advance client
  | .serve socket answer =>
      ((world.connection socket).serve world.serverId world.daemonEpoch answer).map fun served =>
        world.setConnection socket served
  | .emit port => some { world with connection := fun socket => (world.connection socket).emit port }
  | .forward socket port forwarding =>
      ((world.connection socket).forward world.daemonEpoch port forwarding).map fun forwarded =>
        world.setConnection socket forwarded
  | .drop socket =>
      if (world.connection socket).returned then none
      else some (world.setConnection socket (world.connection socket).finish)

/-- After the first successful `start` the ports of the status are attached on the socket. -/
def started (response : StatusResponse) (actor : Actor) : World where
  client := .started response actor
  connection := Function.update (fun _ => Connection.new) 0 {
    Connection.new with
    sent := [.attach 0 (response.ports.map Prod.fst)]
    read := 1
    greeted := true
    subscriptions := response.ports.map fun port => ⟨port.1, 0, .running⟩ }
  serverId := response.serverId
  daemonEpoch := response.daemonEpoch

/-- On a ready socket with nothing in flight every attached port has a running forwarder. -/
def Subscribed (world : World) : Prop :=
  ∀ socket, world.client.readySocket = some socket →
    (world.connection socket).outbound = [] → (world.connection socket).closing = false →
      ∀ requestId ports, .attach requestId ports ∈ (world.connection socket).sent →
        ∀ port ∈ ports, ∃ subscription ∈ (world.connection socket).subscriptions,
          subscription.port = port ∧ subscription.state = .running

end World

end SerialPlatform.Desktop
