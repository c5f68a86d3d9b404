import SerialPlatform.DesktopRuns
import SerialPlatform.DesktopWorld

/-!
# What an event of the desktop client does to the conversation

Most handlers neither send a message nor bring a call closer to a ready socket.  The others
send one message, take the answer to the Attach of a call or make its socket ready.
-/

namespace SerialPlatform.Desktop

/-- The call has not sent its Attach yet. -/
def Awaiting.beforeAttach : Awaiting → Bool
  | .handshake | .opened | .welcome _ _ _ | .greeted _ _ => true
  | .attach _ _ | .attached _ _ | .failed => false

/-- The message of an action, with its socket -/
def sentMessage : SocketId × SocketAction → Option (SocketId × ClientMessage)
  | (socket, .send message) => some (socket, message)
  | (_, .close) | (_, .terminate) => none

def ClientMessage.requestId : ClientMessage → RequestId
  | .hello requestId | .attach requestId _ | .other requestId => requestId

namespace SerialClient

variable {client : SerialClient} {call : Call}

/-- The call comes from one which was as far, or it has not sent its Attach. -/
def Follows (client : SerialClient) (socket : SocketId) (expected : Status) (awaiting : Awaiting) :
    Prop :=
  client.sockets.length ≤ socket ∧ awaiting.beforeAttach = true ∨
    ∃ old ∈ client.calls, ∃ before was, old.stage = .opening socket before was ∧
      (was.beforeAttach = true ∧ awaiting.beforeAttach = true ∨ before = expected ∧ was = awaiting)

/-- A handler which sends nothing and brings no call closer to a ready socket -/
structure Usual (client next : SerialClient) : Prop where
  ids : client.nextId ≤ next.nextId
  sockets : client.sockets.length ≤ next.sockets.length
  outbox : ∃ actions, next.outbox = client.outbox ++ actions ∧ actions.filterMap sentMessage = []
  stages : ∀ call ∈ next.calls, ∀ {socket expected awaiting},
    call.stage = .opening socket expected awaiting → awaiting ≠ .failed →
      client.Follows socket expected awaiting
  ready : ∀ socket, next.readySocket = some socket → client.readySocket = some socket

theorem Usual.trans {middle next : SerialClient} (h : client.Usual middle)
    (h' : middle.Usual next) : client.Usual next where
  ids := le_trans h.ids h'.ids
  sockets := le_trans h.sockets h'.sockets
  outbox := by
    obtain ⟨first, hfirst, hnone⟩ := h.outbox
    obtain ⟨second, hsecond, hnone'⟩ := h'.outbox
    refine ⟨first ++ second, ?_, ?_⟩
    · rw [hsecond, hfirst, List.append_assoc]
    · rw [List.filterMap_append, hnone, hnone']
      rfl
  stages := by
    intro call hcall socket expected awaiting hstage hworks
    cases h'.stages call hcall hstage hworks with
    | inl hnew => exact Or.inl ⟨le_trans h.sockets hnew.1, hnew.2⟩
    | inr hold =>
        obtain ⟨old, hold, before, was, hwas, hsame⟩ := hold
        have hworks' : was ≠ .failed := by
          intro hfailed
          subst hfailed
          cases hsame with
          | inl hboth => simp [Awaiting.beforeAttach] at hboth
          | inr heq => exact hworks heq.2.symm
        cases h.stages old hold hwas hworks' with
        | inl hnew =>
            left
            refine ⟨hnew.1, ?_⟩
            cases hsame with
            | inl hboth => exact hboth.2
            | inr heq => exact heq.2 ▸ hnew.2
        | inr holder =>
            obtain ⟨older, holder, before', was', hwas', hsame'⟩ := holder
            right
            refine ⟨older, holder, before', was', hwas', ?_⟩
            cases hsame with
            | inl hboth =>
                cases hsame' with
                | inl hboth' => exact Or.inl ⟨hboth'.1, hboth.2⟩
                | inr heq' => exact Or.inl ⟨heq'.2 ▸ hboth.1, hboth.2⟩
            | inr heq =>
                obtain ⟨rfl, rfl⟩ := heq
                exact hsame'
  ready := fun socket hready => h.ready socket (h'.ready socket hready)

theorem follows_of_mem (hcall : call ∈ client.calls) {socket : SocketId} {expected : Status}
    {awaiting : Awaiting} (hstage : call.stage = .opening socket expected awaiting) :
    client.Follows socket expected awaiting :=
  Or.inr ⟨call, hcall, expected, awaiting, hstage, Or.inr ⟨rfl, rfl⟩⟩

/-- Fields which the conversation does not show may change, and sockets may be closed. -/
theorem Usual.of_calls {next : SerialClient} (hcalls : ∀ call ∈ next.calls, call ∈ client.calls)
    (hids : client.nextId ≤ next.nextId)
    (hsockets : client.sockets.length ≤ next.sockets.length)
    (houtbox : ∃ actions, next.outbox = client.outbox ++ actions ∧
      actions.filterMap sentMessage = [])
    (hready : ∀ socket, next.readySocket = some socket → client.readySocket = some socket) :
    client.Usual next where
  ids := hids
  sockets := hsockets
  outbox := houtbox
  stages := fun call hcall _ _ _ hstage _ => follows_of_mem (hcalls call hcall) hstage
  ready := hready

theorem same_outbox (client : SerialClient) : ∃ actions, client.outbox =
    client.outbox ++ actions ∧ actions.filterMap sentMessage = [] :=
  ⟨[], by simp⟩

theorem Usual.refl (client : SerialClient) : client.Usual client :=
  .of_calls (fun _ hcall => hcall) le_rfl le_rfl client.same_outbox (fun _ hready => hready)

/-- A stage changes to one which is as far, or fails. -/
def Keeps (change : Stage → Stage) : Prop :=
  ∀ {stage socket expected awaiting}, change stage = .opening socket expected awaiting →
    awaiting ≠ .failed → ∃ before was, stage = .opening socket before was ∧
      (was.beforeAttach = true ∧ awaiting.beforeAttach = true ∨ before = expected ∧ was = awaiting)

theorem usual_mapStages {change : Stage → Stage} (h : Keeps change) :
    client.Usual (client.mapStages change) where
  ids := le_rfl
  sockets := le_rfl
  outbox := client.same_outbox
  stages := by
    intro call hcall socket expected awaiting hstage hworks
    obtain ⟨old, hold, rfl⟩ := List.mem_map.mp hcall
    obtain ⟨before, was, hwas, hsame⟩ := h hstage hworks
    exact Or.inr ⟨old, hold, before, was, hwas, hsame⟩
  ready := fun _ hready => hready

theorem keeps_fail (waits : Stage → Bool) :
    Keeps fun stage => if waits stage then stage.fail else stage := by
  intro stage socket expected awaiting hstage hworks
  dsimp only at hstage
  split at hstage
  · cases stage with
    | configuring => simp [Stage.fail] at hstage
    | loadingHistory => simp [Stage.fail] at hstage
    | opening own status before =>
        simp only [Stage.fail, Stage.opening.injEq] at hstage
        exact absurd hstage.2.2.symm hworks
  · exact ⟨expected, awaiting, hstage, Or.inr ⟨rfl, rfl⟩⟩

theorem usual_failCalls (waits : Stage → Bool) : client.Usual (client.failCalls waits) :=
  usual_mapStages (keeps_fail waits)

theorem usual_rejectPending : client.Usual client.rejectPending :=
  (usual_failCalls fun stage =>
    client.pending.any fun request => awaitsRequest request.requestId stage).trans
      (.of_calls (fun _ hcall => hcall) le_rfl le_rfl (same_outbox _) (fun _ hready => hready))

theorem usual_rejectSocketHandshake (socket : SocketId) :
    client.Usual (client.rejectSocketHandshake socket) := by
  unfold rejectSocketHandshake
  split
  · exact Usual.refl client
  · split
    · exact (usual_failCalls _).trans
        (.of_calls (fun _ hcall => hcall) le_rfl le_rfl (same_outbox _) (fun _ hready => hready))
    · exact Usual.refl client

theorem usual_setReadyState (socket : SocketId) (state : ReadyState) :
    client.Usual (client.setReadyState socket state) :=
  .of_calls (fun _ hcall => hcall) le_rfl (le_of_eq length_setReadyState.symm) (same_outbox client)
    (fun _ hready => hready)

theorem usual_setListening (socket : SocketId) (listening : Bool) :
    client.Usual (client.setListening socket listening) :=
  .of_calls (fun _ hcall => hcall) le_rfl (le_of_eq length_setListening.symm) (same_outbox client)
    (fun _ hready => hready)

theorem usual_terminate (socket : SocketId) : client.Usual (client.terminate socket) := by
  unfold terminate
  split
  · exact Usual.refl client
  · exact .of_calls (fun _ hcall => hcall) le_rfl (le_of_eq length_setReadyState.symm)
      ⟨[(socket, .terminate)], rfl, rfl⟩ (fun _ hready => hready)

theorem usual_closeSocket (socket : SocketId) : client.Usual (client.closeSocket socket) := by
  unfold closeSocket
  split
  · exact Usual.refl client
  · exact .of_calls (fun _ hcall => hcall) le_rfl (le_of_eq length_setReadyState.symm)
      ⟨[(socket, .close)], rfl, rfl⟩ (fun _ hready => hready)

theorem usual_endCall (id : ℕ) : client.Usual (client.endCall id) :=
  .of_calls (fun _ hcall => (mem_endCall.mp hcall).1) le_rfl le_rfl (same_outbox client)
    (fun _ hready => hready)

theorem usual_schedule : client.Usual client.schedule := by
  unfold schedule
  split
  · exact Usual.refl client
  · exact .of_calls (fun _ hcall => hcall) (Nat.le_succ _) le_rfl (same_outbox client)
      (fun _ hready => hready)

theorem usual_runEnds (generation : ℕ) (succeeded : Bool) :
    client.Usual (client.runEnds generation succeeded) := by
  have hloop : ∀ loop, client.Usual { client with reconnectLoop := loop } := fun loop =>
    .of_calls (fun _ hcall => hcall) le_rfl le_rfl (same_outbox _) (fun _ hready => hready)
  unfold runEnds
  dsimp only
  split
  · exact (hloop _).trans usual_schedule
  · exact hloop _

theorem usual_callerReturns (caller : Caller) : client.Usual (client.callerReturns caller) := by
  cases caller with
  | start => exact Usual.refl client
  | run generation => exact usual_runEnds generation true
  | reconnectSocket => exact Usual.refl client

theorem usual_callerThrows (caller : Caller) : client.Usual (client.callerThrows caller) := by
  cases caller with
  | start => exact Usual.refl client
  | run generation => exact usual_runEnds generation false
  | reconnectSocket =>
      simp only [callerThrows]
      split
      · exact Usual.refl client
      · exact usual_schedule

/-- One call fails or waits for something which comes before its Attach as well. -/
theorem usual_setStage {id : ℕ} {stage : Stage}
    (h : ∀ {socket expected awaiting}, stage = .opening socket expected awaiting →
      awaiting ≠ .failed → client.Follows socket expected awaiting) :
    client.Usual (client.setStage id stage) where
  ids := le_rfl
  sockets := le_rfl
  outbox := same_outbox client
  stages := by
    intro call hcall socket expected awaiting hstage hworks
    obtain ⟨old, hold, hsame⟩ := mem_setStage hcall
    split at hsame
    · rw [hsame] at hstage
      exact h hstage hworks
    · rw [hsame] at hstage
      exact follows_of_mem hold hstage
  ready := fun _ hready => hready

theorem usual_setFailed {id : ℕ} {socket : SocketId} {expected : Status} :
    client.Usual (client.setStage id (.opening socket expected .failed)) := by
  apply usual_setStage
  intro own status awaiting hstage hworks
  injection hstage with _ _ hfailed
  exact absurd hfailed.symm hworks

theorem usual_openThrows (socket : SocketId) : client.Usual (client.openThrows call socket) := by
  unfold SerialClient.openThrows
  have hleft : (client.endCall call.id).Usual { client.endCall call.id with
      socket :=
        if (client.endCall call.id).socket = some socket then none
        else (client.endCall call.id).socket
      readySocket :=
        if (client.endCall call.id).readySocket = some socket then none
        else (client.endCall call.id).readySocket
      actor := none } := by
    refine .of_calls (fun _ hcall => hcall) le_rfl le_rfl (same_outbox _) ?_
    intro own hown
    dsimp only at hown
    split at hown
    · simp at hown
    · exact hown
  have hrejected := ((usual_endCall call.id).trans hleft).trans
    ((usual_rejectSocketHandshake socket).trans usual_rejectPending)
  exact hrejected.trans (((usual_setListening socket false).trans (usual_terminate socket)).trans
    (usual_callerThrows call.caller))

/-! ## Handlers which only move the calls -/

theorem keeps_opens (socket : SocketId) : Keeps (Stage.opens socket) := by
  intro stage own expected awaiting hstage _
  obtain ⟨before, hbefore, ⟨hsame, _⟩ | ⟨hhandshake, _, hopened⟩⟩ := opens_opening hstage
  · exact ⟨expected, before, hbefore, Or.inr ⟨rfl, hsame.symm⟩⟩
  · exact ⟨expected, before, hbefore, Or.inl (by simp [hhandshake, hopened, Awaiting.beforeAttach])⟩

theorem keeps_welcomed (socket : SocketId) (actor : Actor) :
    Keeps (Stage.welcomed socket actor) := by
  intro stage own expected awaiting hstage _
  cases stage with
  | configuring => simp [Stage.welcomed] at hstage
  | loadingHistory => simp [Stage.welcomed] at hstage
  | opening mine status was =>
      cases was with
      | welcome hello welcomed accepted =>
          cases welcomed with
          | some earlier =>
              simp only [Stage.welcomed, Stage.opening.injEq] at hstage
              obtain ⟨rfl, rfl, rfl⟩ := hstage
              exact ⟨_, _, rfl, Or.inr ⟨rfl, rfl⟩⟩
          | none =>
              refine ⟨status, .welcome hello none accepted, ?_, Or.inl ⟨rfl, ?_⟩⟩
              · simp only [Stage.welcomed] at hstage
                split at hstage <;> injection hstage with hown <;> rw [hown]
              · simp only [Stage.welcomed] at hstage
                split at hstage
                · injection hstage with _ _ hawaiting
                  rw [← hawaiting]
                  cases accepted <;> rfl
                · injection hstage with _ _ hawaiting
                  rw [← hawaiting]
                  rfl
      | handshake | opened | failed =>
          simp only [Stage.welcomed, Stage.opening.injEq] at hstage
          obtain ⟨rfl, rfl, rfl⟩ := hstage
          exact ⟨_, _, rfl, Or.inr ⟨rfl, rfl⟩⟩
      | greeted earlier reply =>
          simp only [Stage.welcomed, Stage.opening.injEq] at hstage
          obtain ⟨rfl, rfl, rfl⟩ := hstage
          exact ⟨_, _, rfl, Or.inr ⟨rfl, rfl⟩⟩
      | attach earlier request =>
          simp only [Stage.welcomed, Stage.opening.injEq] at hstage
          obtain ⟨rfl, rfl, rfl⟩ := hstage
          exact ⟨_, _, rfl, Or.inr ⟨rfl, rfl⟩⟩
      | attached earlier result =>
          simp only [Stage.welcomed, Stage.opening.injEq] at hstage
          obtain ⟨rfl, rfl, rfl⟩ := hstage
          exact ⟨_, _, rfl, Or.inr ⟨rfl, rfl⟩⟩

theorem usual_resolveWelcome (socket : SocketId) (actor : Actor) :
    client.Usual (client.resolveWelcome socket actor) :=
  (usual_mapStages (keeps_welcomed socket actor)).trans
    (.of_calls (fun _ hcall => hcall) le_rfl le_rfl (same_outbox _) (fun _ hready => hready))

/-- The promise of a request is rejected. -/
theorem usual_settleRequest {request : PendingRequest} {outcome : Outcome}
    (h : outcome = .rejected ∨ outcome = .uncertain) :
    client.Usual (client.settleRequest request outcome) := by
  have hsettled : ∀ pending settlements,
      client.Usual { client with pending := pending, settlements := settlements } :=
    fun _ _ => .of_calls (fun _ hcall => hcall) le_rfl le_rfl (same_outbox _) (fun _ hready => hready)
  cases h with
  | inl hrejected =>
      rw [hrejected]
      exact (hsettled _ _).trans (usual_failCalls _)
  | inr huncertain =>
      rw [huncertain]
      exact (hsettled _ _).trans (usual_failCalls _)

theorem usual_install {next : SerialClient} {response : StatusResponse}
    (h : client.install response = some next) : client.Usual next := by
  unfold SerialClient.install at h
  split at h
  · simp at h
  · split at h
    · cases h
      exact .of_calls (fun _ hcall => hcall) (Nat.le_succ _) le_rfl (same_outbox _)
        (fun _ hready => hready)
    · simp at h

/-- A call which uses no socket joins those under way. -/
theorem usual_join {next : SerialClient} (hidle : Idle call)
    (hcalls : next.calls = client.calls ++ [call]) (hids : client.nextId ≤ next.nextId)
    (hsockets : next.sockets = client.sockets) (houtbox : next.outbox = client.outbox)
    (hready : next.readySocket = client.readySocket) : client.Usual next where
  ids := hids
  sockets := le_of_eq (congrArg List.length hsockets.symm)
  outbox := by
    rw [houtbox]
    exact client.same_outbox
  stages := by
    intro other hother socket expected awaiting hstage _
    rw [hcalls] at hother
    cases List.mem_append.mp hother with
    | inl hold => exact follows_of_mem hold hstage
    | inr hnew =>
        rw [List.mem_singleton.mp hnew] at hstage
        exact absurd hstage (hidle _ _ _)
  ready := by
    intro socket hown
    rw [← hready]
    exact hown

theorem usual_timerExpires (timer : RetryTimer) : client.Usual (client.timerExpires timer) := by
  unfold SerialClient.timerExpires
  dsimp only
  split
  · exact .of_calls (fun _ hcall => hcall) le_rfl le_rfl (same_outbox _) (fun _ hready => hready)
  · have hidle : Idle ⟨client.nextId, .run timer.generation, client.connectionVersion,
        .configuring⟩ := by
      intro socket expected awaiting hstage
      simp at hstage
    exact usual_join hidle rfl (Nat.le_succ _) rfl rfl rfl

theorem usual_configured (response : Option StatusResponse) :
    client.Usual (client.configured call response) := by
  unfold SerialClient.configured
  split
  · exact (usual_endCall call.id).trans (usual_callerThrows call.caller)
  · rename_i refreshed hrefreshed
    obtain ⟨response, _, hinstall⟩ := Option.bind_eq_some_iff.mp hrefreshed
    refine (usual_install hinstall).trans (usual_setStage ?_)
    intro socket expected awaiting hstage
    simp at hstage

theorem usual_beginOpen : client.Usual (client.beginOpen call) := by
  unfold SerialClient.beginOpen
  split
  · exact (usual_endCall call.id).trans (usual_callerReturns call.caller)
  · have hstaged : client.Usual (client.setStage call.id
        (.opening client.sockets.length client.status .handshake)) := by
      apply usual_setStage
      intro socket expected awaiting hstage _
      simp only [Stage.opening.injEq] at hstage
      obtain ⟨rfl, _, rfl⟩ := hstage
      exact Or.inl ⟨le_rfl, rfl⟩
    refine hstaged.trans (.of_calls (fun _ hcall => hcall) le_rfl ?_ (same_outbox _)
      (fun _ hready => hready))
    simp [setStage]

theorem usual_historyLoaded : client.Usual (client.historyLoaded call) := by
  unfold SerialClient.historyLoaded
  split
  · exact (usual_endCall call.id).trans (usual_callerReturns call.caller)
  · exact usual_beginOpen

/-- A new version: the old socket is given up. -/
theorem usual_renewed {base : SerialClient} {close : SocketId → SerialClient → SerialClient}
    (abandoned : Option SocketId) (hbase : client.Usual base)
    (hclose : ∀ socket, base.Usual (close socket base)) :
    client.Usual { (match abandoned with
      | none => base
      | some socket => (close socket base).rejectSocketHandshake socket).rejectPending with
      actor := none } := by
  have hrejected : ∀ given : SerialClient, client.Usual given →
      client.Usual { given.rejectPending with actor := none } := by
    intro given hgiven
    exact (hgiven.trans usual_rejectPending).trans
      (.of_calls (fun _ hcall => hcall) le_rfl le_rfl (same_outbox _) (fun _ hready => hready))
  apply hrejected
  cases abandoned with
  | none => exact hbase
  | some socket => exact (hbase.trans (hclose socket)).trans (usual_rejectSocketHandshake socket)

theorem usual_reconnectSocket : client.Usual client.reconnectSocket := by
  have hbase : client.Usual { { client with
      connectionVersion := client.connectionVersion + 1 }.cancel with
        socket := none
        readySocket := none } :=
    .of_calls (fun _ hcall => hcall) le_rfl le_rfl (same_outbox _) (fun _ hready => by simp at hready)
  have hrenewed := usual_renewed client.socket hbase (fun socket => usual_closeSocket socket)
  have hopens : ∀ renewed : SerialClient,
      renewed.Usual (renewed.withExplicitCall.beginOpen renewed.explicitCall) := by
    intro renewed
    have hjoined : renewed.Usual renewed.withExplicitCall :=
      usual_join renewed.explicitCall_idle rfl (Nat.le_succ _) rfl rfl rfl
    exact hjoined.trans usual_beginOpen
  exact hrenewed.trans (hopens _)

theorem usual_stop : client.Usual client.stop := by
  have hbase : client.Usual { { client with
      stopped := true
      connectionVersion := client.connectionVersion + 1 }.cancel with
        socket := none
        readySocket := none } :=
    .of_calls (fun _ hcall => hcall) le_rfl le_rfl (same_outbox _) (fun _ hready => by simp at hready)
  refine @usual_renewed client _ (fun socket client =>
    if client.readyState socket = .opened then client.closeSocket socket
    else client.terminate socket) client.socket hbase (fun socket => ?_)
  split
  · exact usual_closeSocket socket
  · exact usual_terminate socket

theorem usual_onSocketClose (socket : SocketId) : client.Usual (client.onSocketClose socket) := by
  unfold SerialClient.onSocketClose
  split
  · exact Usual.refl client
  · have hleft : client.Usual { client with
        socket := none
        readySocket := if client.readySocket = some socket then none else client.readySocket } := by
      refine .of_calls (fun _ hcall => hcall) le_rfl le_rfl (same_outbox _) ?_
      intro own hown
      dsimp only at hown
      split at hown
      · simp at hown
      · exact hown
    have hrejected := hleft.trans ((usual_rejectSocketHandshake socket).trans usual_rejectPending)
    have hscheduled : ∀ rejected : SerialClient,
        rejected.Usual { rejected with actor := none }.schedule := by
      intro rejected
      have hactor : rejected.Usual { rejected with actor := none } :=
        .of_calls (fun _ hcall => hcall) le_rfl le_rfl (same_outbox _) (fun _ hready => hready)
      exact hactor.trans usual_schedule
    exact hrejected.trans (hscheduled _)

theorem usual_onSocketError (socket : SocketId) : client.Usual (client.onSocketError socket) := by
  unfold SerialClient.onSocketError
  split
  · exact (usual_rejectSocketHandshake socket).trans usual_rejectPending
  · exact Usual.refl client

/-! ## Every event -/

/-- What an event does to the conversation: it sends these messages and has taken this
result of a request. -/
structure Effect (client : SerialClient) (sends : List (SocketId × ClientMessage))
    (result : Option (RequestId × Reply)) (next : SerialClient) : Prop where
  ids : client.nextId ≤ next.nextId
  sockets : client.sockets.length ≤ next.sockets.length
  outbox : ∃ actions, next.outbox = client.outbox ++ actions ∧
    actions.filterMap sentMessage = sends
  stages : ∀ call ∈ next.calls, ∀ {socket expected awaiting},
    call.stage = .opening socket expected awaiting → awaiting ≠ .failed →
      client.Follows socket expected awaiting ∨
        (∃ actor requestId, awaiting = .attach actor requestId ∧
          sends = [(socket, .attach requestId expected.ports)]) ∨
        ∃ actor requestId reply, result = some (requestId, reply) ∧
          awaiting = .attached actor reply ∧ ∃ old ∈ client.calls,
            old.stage = .opening socket expected (.attach actor requestId)
  ready : ∀ socket, next.readySocket = some socket → client.readySocket = some socket ∨
    ∃ old ∈ client.calls, ∃ expected actor ports,
      old.stage = .opening socket expected (.attached actor (.attached (some ports))) ∧
        ports.mergeSort = expected.ports.mergeSort
  fresh : ∀ send ∈ sends, send.1 < client.sockets.length ∧ send.2.requestId = client.nextId ∧
    client.nextId < next.nextId
  single : sends.length ≤ 1
  attach : ∀ socket requestId ports, (socket, .attach requestId ports) ∈ sends →
    (∃ old ∈ client.calls, ∃ expected awaiting, old.stage = .opening socket expected awaiting ∧
      awaiting.beforeAttach = true) ∧
    ∃ call ∈ next.calls, ∃ expected actor,
      call.stage = .opening socket expected (.attach actor requestId) ∧ ports = expected.ports

theorem Usual.effect {next : SerialClient} (h : client.Usual next)
    (result : Option (RequestId × Reply)) : client.Effect [] result next where
  ids := h.ids
  sockets := h.sockets
  outbox := h.outbox
  stages := fun call hcall _ _ _ hstage hworks => Or.inl (h.stages call hcall hstage hworks)
  ready := fun socket hready => Or.inl (h.ready socket hready)
  fresh := by
    intro send hsend
    simp at hsend
  single := Nat.zero_le _
  attach := by
    intro socket requestId ports hsend
    simp at hsend

theorem control_eq {sent : SerialClient} {socket : SocketId}
    {message : RequestId → ClientMessage} {uncertain : Bool} {codes : List String}
    (h : client.control socket message uncertain codes = some sent) :
    client.socket = some socket ∧ sent = { client with
      pending := client.pending ++ [⟨client.nextId, socket, uncertain, codes⟩]
      nextId := client.nextId + 1
      outbox := client.outbox ++ [(socket, .send (message client.nextId))] } := by
  unfold control at h
  split at h
  · rename_i hopen
    exact ⟨hopen.1, (Option.some.inj h).symm⟩
  · simp at h

/-- Another method of the client sends a request. -/
theorem Connected.effect_request (h : client.Connected) {next : SerialClient} {socket : SocketId}
    {uncertain : Bool} {codes : List String}
    (hnext : client.control socket .other uncertain codes = some next) :
    client.Effect [(socket, .other client.nextId)] none next := by
  obtain ⟨hsocket, rfl⟩ := control_eq hnext
  constructor
  · exact Nat.le_succ _
  · exact le_rfl
  · exact ⟨_, rfl, rfl⟩
  · intro call hcall own expected awaiting hstage _
    exact Or.inl (follows_of_mem hcall hstage)
  · intro own hready
    exact Or.inl hready
  · intro send hsend
    rw [List.mem_singleton.mp hsend]
    exact ⟨h.sockets.made socket hsocket, rfl, Nat.lt_succ_self _⟩
  · exact le_rfl
  · intro own requestId ports hsend
    simp at hsend

theorem Connected.effect_sayHello (h : client.Connected) (hcall : call ∈ client.calls)
    {socket : SocketId} {expected : Status}
    (hstage : call.stage = .opening socket expected .opened) :
    ∃ sends, client.Effect sends none (client.sayHello call socket expected) := by
  unfold SerialClient.sayHello
  split
  · exact ⟨[], (usual_openThrows socket).effect none⟩
  · dsimp only
    split
    · have hthrown := (usual_setListening socket true).trans
        (@usual_openThrows (client.setListening socket true) call socket)
      exact ⟨[], hthrown.effect none⟩
    · split
      · have hwelcome : ∀ welcome : Option PendingWelcome, client.Usual
            { client.setListening socket true with pendingWelcome := welcome } := by
          intro welcome
          exact (usual_setListening socket true).trans
            (.of_calls (fun _ hcall => hcall) le_rfl le_rfl (same_outbox _) (fun _ hready => hready))
        exact ⟨[], ((hwelcome _).trans usual_setFailed).effect none⟩
      · rename_i sent hsent
        obtain ⟨_, rfl⟩ := control_eq hsent
        refine ⟨[(socket, .hello client.nextId)], ?_⟩
        constructor
        · exact Nat.le_succ _
        · exact le_of_eq length_setListening.symm
        · exact ⟨_, rfl, rfl⟩
        · intro other hother own status awaiting hopening _
          left
          obtain ⟨old, hold, hsame⟩ := mem_setStage hother
          have hold' : old ∈ client.calls := hold
          split at hsame
          · rw [hsame] at hopening
            injection hopening with hown hstatus hawaiting
            subst hown hawaiting
            exact Or.inr ⟨call, hcall, expected, .opened, hstage, Or.inl ⟨rfl, rfl⟩⟩
          · rw [hsame] at hopening
            exact follows_of_mem hold' hopening
        · intro own hready
          exact Or.inl hready
        · intro send hsend
          rw [List.mem_singleton.mp hsend]
          exact ⟨(h.sockets.fits call hcall).made hstage, rfl, Nat.lt_succ_self _⟩
        · exact le_rfl
        · intro own requestId ports hsend
          simp at hsend

theorem Connected.effect_sendAttach (h : client.Connected) (hcall : call ∈ client.calls)
    {socket : SocketId} {expected : Status} {actor : Actor} {accepted : Reply}
    (hstage : call.stage = .opening socket expected (.greeted actor accepted)) :
    ∃ sends, client.Effect sends none
      (client.sendAttach call socket expected actor accepted) := by
  unfold SerialClient.sendAttach
  split
  · exact ⟨[], (usual_openThrows socket).effect none⟩
  · split
    · exact ⟨[], (usual_openThrows socket).effect none⟩
    · split
      · exact ⟨[], usual_setFailed.effect none⟩
      · rename_i sent hsent
        obtain ⟨_, rfl⟩ := control_eq hsent
        refine ⟨[(socket, .attach client.nextId expected.ports)], ?_⟩
        constructor
        · exact Nat.le_succ _
        · exact le_rfl
        · exact ⟨_, rfl, rfl⟩
        · intro other hother own status awaiting hopening _
          obtain ⟨old, hold, hsame⟩ := mem_setStage hother
          have hold' : old ∈ client.calls := hold
          split at hsame
          · rw [hsame] at hopening
            injection hopening with hown hstatus hawaiting
            subst hown hstatus hawaiting
            exact Or.inr (Or.inl ⟨actor, client.nextId, rfl, rfl⟩)
          · rw [hsame] at hopening
            exact Or.inl (follows_of_mem hold' hopening)
        · intro own hready
          exact Or.inl hready
        · intro send hsend
          rw [List.mem_singleton.mp hsend]
          exact ⟨(h.sockets.fits call hcall).made hstage, rfl, Nat.lt_succ_self _⟩
        · exact le_rfl
        · intro own requestId ports hsend
          simp only [List.mem_singleton, Prod.mk.injEq, ClientMessage.attach.injEq] at hsend
          obtain ⟨rfl, rfl, rfl⟩ := hsend
          refine ⟨⟨call, hcall, expected, _, hstage, rfl⟩, ?_⟩
          exact ⟨_, setStage_mem hcall rfl, expected, actor, rfl, rfl⟩

theorem effect_becomeReady (hcall : call ∈ client.calls)
    {socket : SocketId} {expected : Status} {actor : Actor} {result : Reply}
    (hstage : call.stage = .opening socket expected (.attached actor result)) :
    client.Effect [] none (client.becomeReady call socket expected actor result) := by
  unfold SerialClient.becomeReady
  split
  · rename_i ports
    split
    · exact (usual_openThrows socket).effect none
    · rename_i hports
      rw [not_not] at hports
      split
      · exact (usual_openThrows socket).effect none
      · obtain ⟨loop, hreturned, _⟩ := callerReturns_eq call.caller
          { client.endCall call.id with actor := some actor, readySocket := some socket }
        rw [hreturned]
        constructor
        · exact le_rfl
        · exact le_rfl
        · exact client.same_outbox
        · intro other hother own status awaiting hopening _
          exact Or.inl (follows_of_mem (mem_endCall.mp hother).1 hopening)
        · intro own hready
          have hown : socket = own := Option.some.inj hready
          subst hown
          exact Or.inr ⟨call, hcall, expected, actor, ports, hstage, hports⟩
        · intro send hsend
          simp at hsend
        · exact Nat.zero_le _
        · intro own requestId ports hsend
          simp at hsend
  · exact (usual_openThrows socket).effect none

theorem Connected.effect_resume (h : client.Connected) (hcall : call ∈ client.calls) :
    ∃ sends, client.Effect sends none (client.resume call) := by
  unfold SerialClient.resume
  split
  · rename_i hstage
    exact h.effect_sayHello hcall hstage
  · rename_i hstage
    exact h.effect_sendAttach hcall hstage
  · rename_i hstage
    exact ⟨[], effect_becomeReady hcall hstage⟩
  · exact ⟨[], (usual_openThrows _).effect none⟩
  · exact ⟨[], (Usual.refl client).effect none⟩

/-- The result of a request is taken. -/
theorem effect_settleRequest (request : PendingRequest) (reply : Reply) :
    client.Effect [] (some (request.requestId, reply))
      (client.settleRequest request (.resolved reply)) := by
  constructor
  · exact le_rfl
  · exact le_rfl
  · exact client.same_outbox
  · intro call hcall socket expected awaiting hstage _
    obtain ⟨old, hold, rfl⟩ := List.mem_map.mp hcall
    have hold' : old ∈ client.calls := hold
    obtain ⟨before, hbefore, ⟨hsame, _⟩ | ⟨hown, _, hwelcome | hgreeted | hattach⟩⟩ :=
      answered_opening hstage
    · rw [← hsame] at hbefore
      exact Or.inl (follows_of_mem hold' hbefore)
    · obtain ⟨hello, rfl, rfl⟩ := hwelcome
      exact Or.inl (Or.inr ⟨old, hold', expected, _, hbefore, Or.inl ⟨rfl, rfl⟩⟩)
    · obtain ⟨hello, actor, rfl, rfl⟩ := hgreeted
      exact Or.inl (Or.inr ⟨old, hold', expected, _, hbefore, Or.inl ⟨rfl, rfl⟩⟩)
    · obtain ⟨actor, attach, rfl, rfl⟩ := hattach
      rw [hbefore] at hown
      have hid : attach = request.requestId := by simpa [awaitsRequest] using hown
      rw [hid] at hbefore
      exact Or.inr (Or.inr ⟨actor, request.requestId, reply, rfl, rfl, old, hold', hbefore⟩)
  · intro own hready
    exact Or.inl hready
  · intro send hsend
    simp at hsend
  · exact Nat.zero_le _
  · intro own requestId ports hsend
    simp at hsend

/-- The result which a frame brings -/
def resultOf : Event → Option (RequestId × Reply)
  | .message _ (.result requestId reply) => some (requestId, reply)
  | _ => none

theorem effect_receive {socket : SocketId} {frame : ServerFrame} {next : SerialClient}
    (h : client.receive socket frame = some next) :
    client.Effect [] (resultOf (.message socket frame)) next := by
  cases frame with
  | result requestId reply =>
      simp only [SerialClient.receive] at h
      split at h
      · cases h
        exact (Usual.refl client).effect _
      · rename_i request hfind
        cases h
        have hid : request.requestId = requestId := by simpa using List.find?_some hfind
        have heffect := @effect_settleRequest client request reply
        rw [hid] at heffect
        exact heffect
  | error requestId code =>
      cases requestId with
      | none => simp [SerialClient.receive] at h
      | some requestId =>
          simp only [SerialClient.receive] at h
          split at h
          · simp at h
          · cases h
            refine (usual_settleRequest ?_).effect _
            split
            · exact Or.inr rfl
            · exact Or.inl rfl
  | welcome protocolVersion serverId daemonEpoch actor =>
      simp only [SerialClient.receive] at h
      split at h
      · split at h
        · cases h
          exact (usual_resolveWelcome socket _).effect _
        · simp at h
      · simp at h
  | undecodable => simp [SerialClient.receive] at h
  | data port daemonEpoch =>
      simp only [SerialClient.receive, Option.ite_none_right_eq_some] at h
      cases h.2
      exact (Usual.refl client).effect _
  | timeline port daemonEpoch =>
      simp only [SerialClient.receive, Option.ite_none_right_eq_some] at h
      cases h.2
      exact (Usual.refl client).effect _
  | snapshot port daemonEpoch =>
      cases port with
      | none => simp [SerialClient.receive] at h
      | some port =>
          simp only [SerialClient.receive, Option.ite_none_right_eq_some] at h
          cases h.2
          exact (Usual.refl client).effect _
  | gap port | lagged port | replayBegin port | ready port =>
      cases h
      exact (Usual.refl client).effect _

theorem effect_onSocketMessage (socket : SocketId) (frame : ServerFrame) :
    client.Effect [] (resultOf (.message socket frame)) (client.onSocketMessage socket frame) := by
  unfold SerialClient.onSocketMessage
  split
  · exact (Usual.refl client).effect _
  · split
    · rename_i next hnext
      exact effect_receive hnext
    · split
      · exact (usual_terminate socket).effect _
      · exact (((usual_rejectSocketHandshake socket).trans usual_rejectPending).trans
          (usual_terminate socket)).effect _

theorem Connected.effect (h : client.Connected) {event : Event} {next : SerialClient}
    (hstep : SerialClient.step event client = some next) :
    ∃ sends, client.Effect sends (resultOf event) next := by
  unfold SerialClient.step at hstep
  split at hstep
  · simp at hstep
  · cases event with
    | timer id =>
        obtain ⟨timer, _, rfl⟩ := Option.map_eq_some_iff.mp hstep
        exact ⟨[], (usual_timerExpires timer).effect _⟩
    | configured id response =>
        simp only [handle] at hstep
        split at hstep
        · obtain ⟨_, hnext⟩ := Option.ite_none_right_eq_some.mp hstep
          cases hnext
          exact ⟨[], (usual_configured response).effect _⟩
        · simp at hstep
    | historyLoaded id =>
        simp only [handle] at hstep
        split at hstep
        · obtain ⟨_, hnext⟩ := Option.ite_none_right_eq_some.mp hstep
          cases hnext
          exact ⟨[], usual_historyLoaded.effect _⟩
        · simp at hstep
    | refreshed response => exact ⟨[], (usual_install hstep).effect _⟩
    | opened socket =>
        obtain ⟨_, hnext⟩ := Option.ite_none_right_eq_some.mp hstep
        cases hnext
        exact ⟨[], ((usual_setReadyState socket .opened).trans
          (usual_mapStages (keeps_opens socket))).effect _⟩
    | error socket =>
        simp only [handle] at hstep
        split at hstep
        · cases hstep
          exact ⟨[], (usual_onSocketError socket).effect _⟩
        · cases hstep
          exact ⟨[], (usual_failCalls _).effect _⟩
    | closed socket =>
        simp only [handle] at hstep
        split at hstep
        · simp at hstep
        · split at hstep
          · cases hstep
            exact ⟨[], ((usual_setReadyState socket .closed).trans
              (usual_onSocketClose socket)).effect _⟩
          · cases hstep
            exact ⟨[], ((usual_setReadyState socket .closed).trans (usual_failCalls _)).effect _⟩
    | message socket frame =>
        obtain ⟨_, hnext⟩ := Option.ite_none_right_eq_some.mp hstep
        cases hnext
        exact ⟨[], effect_onSocketMessage socket frame⟩
    | timeout id =>
        simp only [handle] at hstep
        split at hstep
        · split at hstep
          · split at hstep
            · cases hstep
              exact ⟨[], usual_setFailed.effect _⟩
            · simp at hstep
          · simp at hstep
        · simp at hstep
    | sendFailed requestId =>
        obtain ⟨request, _, rfl⟩ := Option.map_eq_some_iff.mp hstep
        refine ⟨[], (usual_settleRequest ?_).effect _⟩
        split
        · exact Or.inr rfl
        · exact Or.inl rfl
    | request uncertain codes =>
        obtain ⟨socket, _, hnext⟩ := Option.bind_eq_some_iff.mp hstep
        exact ⟨_, h.effect_request hnext⟩
    | reconnectSocket =>
        cases hstep
        exact ⟨[], usual_reconnectSocket.effect _⟩
    | stop =>
        cases hstep
        exact ⟨[], usual_stop.effect _⟩
    | resume id =>
        simp only [handle] at hstep
        split at hstep
        · rename_i call hfind
          obtain ⟨_, hnext⟩ := Option.ite_none_right_eq_some.mp hstep
          cases hnext
          exact h.effect_resume (find_call hfind).1
        · simp at hstep

/-- No call can come back on this socket and it is not ready. -/
def Dead (client : SerialClient) (socket : SocketId) : Prop :=
  client.readySocket ≠ some socket ∧ ∀ call ∈ client.calls, ∀ expected awaiting,
    call.stage = .opening socket expected awaiting → awaiting = .failed

/-- A socket which has closed is dead. -/
theorem Connected.dead_of_closed (h : client.Connected) {socket : SocketId} {next : SerialClient}
    (hstep : SerialClient.step (.closed socket) client = some next) :
    next.Dead socket ∧ socket < client.sockets.length := by
  unfold SerialClient.step at hstep
  split at hstep
  · simp at hstep
  · rename_i hevent
    have hquiet : client.Quiet := quiet_of_waits rfl hevent
    simp only [handle, listening_setReadyState] at hstep
    split at hstep
    · simp at hstep
    · rename_i hopen
      refine ⟨?_, lt_of_readyState hopen⟩
      -- A call on this socket waits for the socket to open or for an answer.
      have hwaiting : ∀ call ∈ client.calls, ∀ expected awaiting,
          call.stage = .opening socket expected awaiting → awaiting = .failed ∨
            awaiting = .handshake ∧ client.listening socket = false ∨
            awaiting.converses = true ∧ client.socket = some socket ∧
              client.listening socket = true := by
        intro call hcall expected awaiting hstage
        have hunsettled := hquiet.unsettled hcall hstage
        have hfits := h.sockets.fits call hcall
        cases awaiting with
        | failed => exact Or.inl rfl
        | handshake =>
            right
            left
            refine ⟨rfl, ?_⟩
            by_contra hlistening
            rw [Bool.not_eq_false] at hlistening
            exact (hfits.handshake hstage).1 (Or.inr hlistening)
        | opened => simp [Awaiting.isSettled] at hunsettled
        | welcome hello welcomed accepted =>
            obtain ⟨hsocket, _, hlistening⟩ := hfits.conversing hstage rfl
            exact Or.inr (Or.inr ⟨rfl, hsocket, hlistening⟩)
        | greeted actor accepted => simp [Awaiting.isSettled] at hunsettled
        | attach actor attach =>
            obtain ⟨hsocket, _, hlistening⟩ := hfits.conversing hstage rfl
            exact Or.inr (Or.inr ⟨rfl, hsocket, hlistening⟩)
        | attached actor result => simp [Awaiting.isSettled] at hunsettled
      split at hstep
      · rename_i hlistening
        cases hstep
        by_cases hlive : client.stopped = true ∨ client.socket ≠ some socket
        · have hother : client.socket ≠ some socket := by
            cases hlive with
            | inl hstopped =>
                rw [h.sockets.stopped hstopped]
                simp
            | inr hne => exact hne
          unfold SerialClient.onSocketClose
          rw [if_pos]
          · constructor
            · intro hready
              exact hother (h.sockets.ready socket hready).1
            · intro call hcall expected awaiting hstage
              obtain hfailed | ⟨_, hsilent⟩ | ⟨_, hsocket, _⟩ :=
                hwaiting call hcall expected awaiting hstage
              · exact hfailed
              · simp [hlistening] at hsilent
              · exact absurd hsocket hother
          · exact Or.inr hother
        · simp only [not_or, not_not, Bool.not_eq_true] at hlive
          obtain ⟨hstopped, hsocket⟩ := hlive
          have hclosed := h.setClosed hquiet socket
          rw [hclosed.sockets.onSocketClose_eq hstopped hsocket]
          obtain ⟨loop, timers, nextId, hschedule⟩ :=
            schedule_eq (client.setReadyState socket .closed).forsaken
          rw [hschedule]
          constructor
          · intro hready
            simp [forsaken] at hready
          · intro call hcall expected awaiting hstage
            obtain ⟨before, hbefore, rfl⟩ := mem_quit hcall
            have hbefore' : before ∈ client.calls := hbefore
            obtain ⟨was, hwas, ⟨hsame, hsettled⟩ | ⟨hfailed, _⟩⟩ := abandoned_opening hstage
            · obtain hfailed | ⟨_, hsilent⟩ | ⟨hconverses, _⟩ :=
                hwaiting before hbefore' expected was hwas
              · rw [hsame, hfailed]
              · simp [hlistening] at hsilent
              · have hunsettled := hquiet.unsettled hbefore' hwas
                rw [hsettled hconverses] at hunsettled
                simp at hunsettled
            · exact hfailed
      · rename_i hlistening
        rw [Bool.not_eq_true] at hlistening
        cases hstep
        constructor
        · intro hready
          have hlistens := (h.sockets.ready socket hready).2.1
          simp [hlistening] at hlistens
        · intro call hcall expected awaiting hstage
          obtain ⟨before, hbefore, rfl⟩ := List.mem_map.mp hcall
          have hbefore' : before ∈ client.calls := hbefore
          dsimp only at hstage
          split at hstage
          · cases hopening : before.stage with
            | configuring => simp [hopening, Stage.fail] at hstage
            | loadingHistory => simp [hopening, Stage.fail] at hstage
            | opening own status was =>
                rw [hopening] at hstage
                simp only [Stage.fail, Stage.opening.injEq] at hstage
                exact hstage.2.2.symm
          · rename_i hhandshake
            obtain hfailed | ⟨hshaking, _⟩ | ⟨_, _, hlistens⟩ :=
              hwaiting before hbefore' expected awaiting hstage
            · exact hfailed
            · rw [hstage, hshaking] at hhandshake
              simp [handshakeOf] at hhandshake
            · simp [hlistening] at hlistens

end SerialClient

end SerialPlatform.Desktop
