import SerialPlatform.DesktopProgress

/-!
# Runs of the desktop client

Whatever events come, in whatever order, the connection stays in order as long as
`reconnectSocket` does not overtake itself, a socket does not open behind the back of one
which still connects, and the error of a socket does not come after its successor opened.
-/

namespace SerialPlatform.Desktop

namespace SerialClient

variable {client : SerialClient} {call : Call}

/-! ## `reconnectAttempt` after its `refresh` -/

theorem Connected.historyLoaded (h : client.Connected) (hcall : call ∈ client.calls)
    (hstage : call.stage = .loadingHistory) : (client.historyLoaded call).Connected := by
  have hidle : Idle call := by
    intro socket expected awaiting hopening
    rw [hstage] at hopening
    simp at hopening
  unfold SerialClient.historyLoaded
  split
  · rename_i hover
    have hstale : call.version ≠ client.connectionVersion := by
      cases hover with
      | inl hstopped => exact (h.course.stopped hstopped).2 call.key (key_mem hcall)
      | inr hversion => exact hversion
    obtain ⟨loop, hreturned, htimer⟩ := callerReturns_eq call.caller (client.endCall call.id)
    refine ⟨?_, ?_, ?_⟩
    · rw [course_callerReturns, course_endCall]
      exact (h.course.ends_stale (key_mem hcall) hstale).1
    · exact (h.sockets.leave h.course.toOrderly hcall hidle).callerReturns call.caller
    · rw [hreturned]
      intro hset other hother hversion
      rw [htimer] at hset
      exact h.retried hset other (mem_endCall.mp hother).1 hversion
  · rename_i hlive
    simp only [not_or, not_not] at hlive
    exact h.beginOpen hcall hlive.2 hidle

/-! ## `reconnectSocket` and `stop` -/

theorem closeSocket_eq (socket : SocketId) (client : SerialClient) :
    ∃ outbox, client.closeSocket socket = { client.terminate socket with outbox := outbox } := by
  unfold closeSocket terminate
  split <;> exact ⟨_, rfl⟩

theorem terminate_eq (socket : SocketId) (client : SerialClient) :
    ∃ sockets outbox, client.terminate socket =
      { client with sockets := sockets, outbox := outbox } := by
  unfold terminate
  split
  · exact ⟨client.sockets, client.outbox, rfl⟩
  · exact ⟨_, _, rfl⟩

theorem up_terminate {socket own : SocketId} (h : (client.terminate socket).Up own) :
    client.Up own := by
  by_cases hsame : own = socket
  · rw [hsame] at h ⊢
    cases h with
    | inl hopened =>
        cases @readyState_terminate_self client socket with
        | inl hclosed => simp [hclosed] at hopened
        | inr hclosing => simp [hclosing] at hopened
    | inr hlistening => exact Or.inr (listening_terminate.symm.trans hlistening)
  · rw [Up, readyState_terminate_ne hsame, listening_terminate] at h
    exact h

/-- The client once its version is new and its socket closed or terminated. -/
theorem Sockets.renewed (h : client.Sockets) (hquiet : client.Quiet) (base : SerialClient)
    (close : SocketId → SerialClient → SerialClient)
    (hclose : ∀ socket, ∃ outbox, close socket base =
      { base.terminate socket with outbox := outbox })
    (hcalls : base.calls = client.calls) (hsockets : base.sockets = client.sockets)
    (hpending : base.pending = client.pending)
    (hwelcome : base.pendingWelcome = client.pendingWelcome) (hsocket : base.socket = none)
    (hready : base.readySocket = none)
    (hversion : ∀ call ∈ client.calls, call.version ≠ base.connectionVersion) :
    ∃ next : SerialClient,
      { (match client.socket with
        | none => base
        | some socket => (close socket base).rejectSocketHandshake socket).rejectPending with
        actor := none } = next ∧
      next.Sockets ∧ next.course = base.course := by
  have hlistening : ∀ own, base.listening own = client.listening own := by
    intro own
    rw [listening, listening, hsockets]
  have hreadyState : ∀ own, base.readyState own = client.readyState own := by
    intro own
    rw [readyState, readyState, hsockets]
  have hup : ∀ own, base.Up own ↔ client.Up own := by
    intro own
    rw [Up, Up, hlistening, hreadyState]
  have hwaits : ∀ call ∈ client.calls, base.Waits call := by
    intro call hcall
    have hold := (h.fits call hcall).waits
    refine ⟨?_, ?_, hold.greeting, ?_⟩
    · rw [hpending]
      exact hold.hello
    · rw [hwelcome]
      exact hold.welcome
    · rw [hpending]
      exact hold.attach
  refine ⟨_, rfl, ?_, ?_⟩
  · cases hcurrent : client.socket with
    | none =>
        obtain ⟨hnone, hnoneWelcome, _⟩ :=
          h.silent fun own hown => by simp [hcurrent] at hown
        have habandon := @abandon_eq base 0 (by rwa [hcalls]) fun welcome hsome => by
          simp [hwelcome, hnoneWelcome] at hsome
        have hsame : base.rejectSocketHandshake 0 = base := by
          unfold rejectSocketHandshake
          rw [hwelcome, hnoneWelcome]
        rw [hsame] at habandon
        dsimp only
        rw [habandon]
        refine h.givenUp hquiet (by rw [← hcalls]) hsocket hready rfl rfl (by rw [← hsockets])
          (fun own hown => (hup own).mp hown) ?_ (fun call hcall _ _ _ => hversion call hcall)
        intro own hown
        have hown' : client.listening own = true := (hlistening own).symm.trans hown
        have hstate : base.readyState own ≠ .connecting := by
          rw [hreadyState]
          exact h.listen own hown'
        exact hstate
    | some socket =>
        obtain ⟨outbox, hclosed⟩ := hclose socket
        obtain ⟨sockets, outbox', hterminate⟩ := terminate_eq socket base
        have hupNext : ∀ own, (base.terminate socket).Up own → client.Up own :=
          fun own hown => (hup own).mp (up_terminate hown)
        have hlistenNext : ∀ own, (base.terminate socket).listening own = true →
            (base.terminate socket).readyState own ≠ .connecting := by
          intro own hown
          by_cases hsame : own = socket
          · rw [hsame]
            cases @readyState_terminate_self base socket with
            | inl hstate => simp [hstate]
            | inr hstate => simp [hstate]
          · rw [listening_terminate, hlistening] at hown
            rw [readyState_terminate_ne hsame, hreadyState]
            exact h.listen own hown
        have hlength : (base.terminate socket).sockets.length = client.sockets.length := by
          rw [length_terminate, hsockets]
        rw [hterminate] at hclosed hupNext hlistenNext hlength
        dsimp only
        rw [hclosed, abandon_eq]
        · exact h.givenUp hquiet (by rw [← hcalls]) hsocket hready rfl rfl hlength hupNext
            hlistenNext (fun call hcall _ _ _ => hversion call hcall)
        · intro call hcall
          have hcall' : call ∈ client.calls := hcalls ▸ hcall
          have hold := hwaits call hcall'
          exact ⟨hold.hello, hold.welcome, hold.greeting, hold.attach⟩
        · intro welcome hsome
          have hsome' : client.pendingWelcome = some welcome := hwelcome.symm.trans hsome
          exact h.welcome_of_socket hcurrent welcome hsome'
  · cases client.socket with
    | none => exact course_rejectPending base
    | some socket =>
        obtain ⟨outbox, hclosed⟩ := hclose socket
        have hcourse : (close socket base).course = base.course := by
          rw [hclosed]
          exact course_terminate socket base
        have hrejected := course_rejectPending ((close socket base).rejectSocketHandshake socket)
        rw [course_rejectSocketHandshake, hcourse] at hrejected
        exact hrejected

theorem Connected.older (h : client.Connected) (hcall : call ∈ client.calls) :
    call.version ≠ client.connectionVersion + 1 := by
  have hle := h.course.versions call.key (key_mem hcall)
  exact Nat.ne_of_lt (Nat.lt_succ_of_le hle)

theorem Connected.stop (h : client.Connected) (hquiet : client.Quiet) :
    client.stop.Connected := by
  obtain ⟨next, hnext, hsockets, hcourse⟩ := h.sockets.renewed hquiet
    { { client with
        stopped := true
        connectionVersion := client.connectionVersion + 1 }.cancel with
      socket := none
      readySocket := none }
    (fun socket client =>
      if client.readyState socket = .opened then client.closeSocket socket
      else client.terminate socket)
    (by
      intro socket
      dsimp only
      split
      · exact closeSocket_eq socket _
      · exact ⟨_, rfl⟩)
    rfl rfl rfl rfl rfl rfl (fun call hcall => h.older hcall)
  have hstop : client.stop = next := hnext
  have hhalt : next.course = { client.course.renew with stopped := true } := hcourse
  rw [hstop]
  refine ⟨?_, hsockets, ?_⟩
  · rw [hhalt]
    exact h.course.halt
  · apply Retried.of_none
    have htimer := congrArg (fun course => course.loop.timer) hhalt
    exact htimer

/-- The call of `openSocket` which `reconnectSocket` makes -/
def explicitCall (client : SerialClient) : Call :=
  ⟨client.nextId, .reconnectSocket, client.connectionVersion, .configuring⟩

def withExplicitCall (client : SerialClient) : SerialClient :=
  { client with calls := client.calls ++ [client.explicitCall], nextId := client.nextId + 1 }

theorem explicitCall_idle : Idle client.explicitCall := by
  intro socket expected awaiting hstage
  simp [explicitCall] at hstage

theorem course_withExplicitCall : client.withExplicitCall.course = client.course.begin
    ⟨client.course.nextId, .reconnectSocket, client.course.version⟩ := by
  simp [withExplicitCall, explicitCall, SerialClient.course, Course.begin, Call.key]

/-- A stopped client opens nothing: the call returns at once. -/
theorem beginOpen_stopped (hstopped : client.stopped = true)
    (hfresh : ∀ call ∈ client.calls, call.id < client.nextId) :
    client.withExplicitCall.beginOpen client.explicitCall =
      { client with nextId := client.nextId + 1 } := by
  have hcalls : (client.calls ++ [client.explicitCall]).filter
      (fun call => call.id ≠ client.explicitCall.id) = client.calls := by
    rw [List.filter_append, List.filter_eq_self.mpr]
    · simp
    · intro call hcall
      exact decide_eq_true (Nat.ne_of_lt (hfresh call hcall))
  unfold SerialClient.beginOpen
  rw [if_pos (show client.withExplicitCall.stopped = true from hstopped)]
  simp only [SerialClient.endCall, withExplicitCall, hcalls]
  rfl

theorem Connected.reconnectSocket (h : client.Connected) (hquiet : client.Quiet)
    (hexplicit : ∀ call ∈ client.calls, call.caller ≠ .reconnectSocket) :
    client.reconnectSocket.Connected := by
  obtain ⟨next, hnext, hsockets, hcourse⟩ := h.sockets.renewed hquiet
    { { client with connectionVersion := client.connectionVersion + 1 }.cancel with
      socket := none
      readySocket := none }
    closeSocket (fun socket => closeSocket_eq socket _)
    rfl rfl rfl rfl rfl rfl (fun call hcall => h.older hcall)
  have hrenew : next.course = client.course.renew := hcourse
  have hstopped : next.stopped = client.stopped := congrArg Course.stopped hrenew
  have htimer : next.reconnectLoop.timer = none :=
    congrArg (fun course => course.loop.timer) hrenew
  have hopens : client.reconnectSocket = next.withExplicitCall.beginOpen next.explicitCall := by
    rw [← hnext]
    rfl
  rw [hopens]
  by_cases hstop : client.stopped = true
  · rw [beginOpen_stopped (hstopped.trans hstop)]
    · refine ⟨?_, hsockets.congr rfl rfl rfl rfl rfl rfl rfl rfl rfl, Retried.of_none htimer⟩
      have hsame : { next with nextId := next.nextId + 1 }.course =
          { next.course with nextId := next.course.nextId + 1 } := rfl
      rw [hsame, hrenew]
      exact h.course.renew_stopped hstop
    · intro call hcall
      have hkey : call.key ∈ next.course.keys := key_mem hcall
      have hnextId : next.course.nextId = client.course.nextId := by rw [hrenew]; rfl
      rw [hrenew] at hkey
      have hfresh := h.course.fresh call.key hkey
      rw [← hnextId] at hfresh
      exact hfresh
  · rw [Bool.not_eq_true] at hstop
    apply Connected.beginOpen
    · refine ⟨?_, ?_, Retried.of_none htimer⟩
      · rw [course_withExplicitCall, hrenew]
        apply h.course.reopen hstop
        intro key hkey
        obtain ⟨call, hcall, rfl⟩ := List.mem_map.mp hkey
        exact hexplicit call hcall
      · have hjoined := hsockets.join next.explicitCall_idle
        exact hjoined.congr rfl rfl rfl rfl rfl rfl rfl rfl rfl
    · exact List.mem_append_right _ (List.mem_singleton.mpr rfl)
    · rfl
    · exact explicitCall_idle

/-! ## One event -/

theorem Connected.closed (h : client.Connected) (hquiet : client.Quiet) (socket : SocketId) :
    (if client.listening socket then (client.setReadyState socket .closed).onSocketClose socket
      else (client.setReadyState socket .closed).failCalls (handshakeOf socket)).Connected := by
  have hclosed := h.setClosed hquiet socket
  split
  · rename_i hlistening
    exact hclosed.onSocketClose hquiet (listening_setReadyState.trans hlistening)
  · exact hclosed.failCalls (handshakeOf socket)

/-- Before this event nothing interferes with the current connection: `reconnectSocket` does
not overtake an earlier call of its own, the current socket does not open while another
socket still connects, and a socket which was given up reports no error once its successor
has opened. -/
def Undisturbed (event : Event) (client : SerialClient) : Prop :=
  match event with
  | .reconnectSocket => ∀ call ∈ client.calls, call.caller ≠ .reconnectSocket
  | .opened socket => client.socket = some socket → client.OnlyHandshake socket
  | .error socket => client.listening socket = true → client.Timely socket
  | _ => True

/-- The call waits for the `open` event of another socket. -/
def connectsElsewhere (socket : SocketId) : Stage → Bool
  | .opening own _ .handshake => own ≠ socket
  | _ => false

theorem onlyHandshake_iff {socket : SocketId} : client.OnlyHandshake socket ↔
    ∀ call ∈ client.calls, connectsElsewhere socket call.stage = false := by
  constructor
  · intro h call hcall
    unfold connectsElsewhere
    split
    · rename_i own expected hstage
      simpa using h call hcall own expected hstage
    · rfl
  · intro h call hcall own expected hstage
    have helsewhere := h call hcall
    rw [hstage] at helsewhere
    simpa [connectsElsewhere] using helsewhere

instance (client : SerialClient) (socket : SocketId) : Decidable (client.OnlyHandshake socket) :=
  decidable_of_iff _ onlyHandshake_iff.symm

instance (client : SerialClient) (socket : SocketId) : Decidable (client.Timely socket) :=
  inferInstanceAs (Decidable (∀ own ∈ client.socket,
    own = socket ∨ client.readyState own = .connecting))

instance (event : Event) (client : SerialClient) : Decidable (client.Undisturbed event) := by
  cases event with
  | reconnectSocket =>
      exact inferInstanceAs (Decidable (∀ call ∈ client.calls, call.caller ≠ .reconnectSocket))
  | opened socket =>
      exact inferInstanceAs (Decidable (client.socket = some socket → client.OnlyHandshake socket))
  | error socket =>
      exact inferInstanceAs (Decidable (client.listening socket = true → client.Timely socket))
  | timer | configured | historyLoaded | refreshed | closed | message | timeout | sendFailed
    | request | stop | resume => exact isTrue trivial

theorem quiet_of_waits {event : Event} (hwaits : event.waits = true)
    (hevent : ¬(event.waits = true ∧ client.calls.any Call.isSettled = true)) :
    client.Quiet := by
  intro call hcall
  by_contra hsettled
  rw [Bool.not_eq_false] at hsettled
  exact hevent ⟨hwaits, List.any_eq_true.mpr ⟨call, hcall, hsettled⟩⟩

theorem find_call {id : ℕ} (h : client.calls.find? (·.id = id) = some call) :
    call ∈ client.calls ∧ call.id = id :=
  ⟨List.mem_of_find?_eq_some h, by simpa using List.find?_some h⟩

theorem Connected.step (h : client.Connected) {event : Event} {next : SerialClient}
    (hundisturbed : client.Undisturbed event) (hstep : SerialClient.step event client = some next) :
    next.Connected := by
  unfold SerialClient.step at hstep
  split at hstep
  · simp at hstep
  · rename_i hevent
    have hquiet : event.waits = true → client.Quiet := fun hwaits => quiet_of_waits hwaits hevent
    cases event with
    | timer id =>
        obtain ⟨timer, hfind, rfl⟩ := Option.map_eq_some_iff.mp hstep
        exact h.timerExpires (hquiet rfl) (List.mem_of_find?_eq_some hfind)
    | configured id response =>
        simp only [handle] at hstep
        split at hstep
        · rename_i call hfind
          obtain ⟨hstage, hnext⟩ := Option.ite_none_right_eq_some.mp hstep
          cases hnext
          exact h.configured (find_call hfind).1 hstage response
        · simp at hstep
    | historyLoaded id =>
        simp only [handle] at hstep
        split at hstep
        · rename_i call hfind
          obtain ⟨hstage, hnext⟩ := Option.ite_none_right_eq_some.mp hstep
          cases hnext
          exact h.historyLoaded (find_call hfind).1 hstage
        · simp at hstep
    | refreshed response => exact h.install hstep
    | opened socket =>
        obtain ⟨hconnecting, hnext⟩ := Option.ite_none_right_eq_some.mp hstep
        cases hnext
        exact h.socketOpens (hquiet rfl) hconnecting hundisturbed
    | error socket =>
        simp only [handle] at hstep
        split at hstep
        · rename_i hlistening
          cases hstep
          exact h.onSocketError (hundisturbed hlistening)
        · cases hstep
          exact h.failCalls (handshakeOf socket)
    | closed socket =>
        have hclosed := h.closed (hquiet rfl) socket
        simp only [handle, listening_setReadyState] at hstep
        split at hstep
        · simp at hstep
        · split at hstep
          · rename_i hlistening
            cases hstep
            rw [if_pos hlistening] at hclosed
            exact hclosed
          · rename_i hlistening
            cases hstep
            rw [if_neg hlistening] at hclosed
            exact hclosed
    | message socket frame =>
        obtain ⟨hopen, hnext⟩ := Option.ite_none_right_eq_some.mp hstep
        cases hnext
        exact h.onSocketMessage hopen.1 frame
    | timeout id =>
        simp only [handle] at hstep
        split at hstep
        · rename_i call hfind
          split at hstep
          · split at hstep
            · rename_i socket expected awaiting hstage
              cases hstep
              obtain ⟨hcall, hid⟩ := find_call hfind
              exact h.timeout hcall hid hstage
            · simp at hstep
          · simp at hstep
        · simp at hstep
    | sendFailed requestId =>
        obtain ⟨request, _, rfl⟩ := Option.map_eq_some_iff.mp hstep
        exact h.settleRequest request _
    | request uncertain codes =>
        obtain ⟨socket, _, hnext⟩ := Option.bind_eq_some_iff.mp hstep
        exact h.request (hquiet rfl) hnext
    | reconnectSocket =>
        cases hstep
        exact h.reconnectSocket (hquiet rfl) hundisturbed
    | stop =>
        cases hstep
        exact h.stop (hquiet rfl)
    | resume id =>
        simp only [handle] at hstep
        split at hstep
        · rename_i call hfind
          obtain ⟨_, hnext⟩ := Option.ite_none_right_eq_some.mp hstep
          cases hnext
          exact h.resume (find_call hfind).1
        · simp at hstep

theorem connected_started (response : StatusResponse) (actor : Actor) :
    (started response actor).Connected where
  course := by
    constructor
    · constructor <;> simp [started, course]
    · simp [started, course]
  sockets := by
    constructor
    case listen =>
      intro socket
      cases socket <;> simp [started, listening, readyState]
    all_goals simp [started, listening, openers]
  retried := Retried.of_none rfl

theorem connected_of_reaches {response : StatusResponse} {actor : Actor}
    (h : GuardedRuns.Reaches SerialClient.step (fun event client => client.Undisturbed event)
      (started response actor) client) : client.Connected :=
  h.invariant (connected_started response actor) fun hclient hundisturbed hstep =>
    hclient.step hundisturbed hstep

/-! ## What holds in every state -/

/-- A connection is there or on its way, and what counts as ready is the current socket. -/
structure Works (client : SerialClient) : Prop where
  working : client.stopped = false → client.readySocket = none →
    client.timers ≠ [] ∨ ∃ call ∈ client.calls,
      call.caller = .run client.reconnectLoop.generation ∨
        call.caller = .reconnectSocket ∧ call.version = client.connectionVersion
  oneTimer : client.timers.length ≤ 1
  ready : ∀ socket, client.readySocket = some socket →
    client.socket = some socket ∧ client.actor ≠ none

theorem Connected.works (h : client.Connected) : client.Works where
  working := by
    intro hstopped hready
    have hnone : client.course.ready = false := by simp [SerialClient.course, hready]
    cases h.course.working hstopped hnone with
    | inl htimer =>
        left
        intro hempty
        cases h.course.timers with
        | inl hboth => exact htimer hboth.2
        | inr hone =>
            obtain ⟨timer, htimers, _⟩ := hone
            have hsome : client.timers = [timer] := htimers
            simp [hempty] at hsome
    | inr hkey =>
        right
        obtain ⟨key, hkey, hversion⟩ := hkey
        obtain ⟨call, hcall, rfl⟩ := List.mem_map.mp hkey
        refine ⟨call, hcall, ?_⟩
        cases h.course.callers call.key hkey with
        | inl hrun =>
            left
            have hgeneration := h.course.generation
            rw [← hversion] at hgeneration
            exact hrun.trans (congrArg Caller.run hgeneration.symm)
        | inr hexplicit => exact Or.inr ⟨hexplicit.1, hversion⟩
  oneTimer := by
    cases h.course.timers with
    | inl hnone =>
        have hempty : client.timers = [] := hnone.1
        simp [hempty]
    | inr hone =>
        obtain ⟨timer, htimers, _⟩ := hone
        have hsome : client.timers = [timer] := htimers
        simp [hsome]
  ready := by
    intro socket hready
    obtain ⟨hsocket, _, hactor⟩ := h.sockets.ready socket hready
    exact ⟨hsocket, hactor⟩

/-! ## The attempt of a cancelled generation -/

/-- The `openSocket` whose promise, time-out or socket an event comes from -/
def origin (event : Event) (client : SerialClient) : Option Caller :=
  match event with
  | .timer id => (client.timers.find? (·.id = id)).map fun timer => .run timer.generation
  | .configured id _ | .historyLoaded id | .timeout id | .resume id =>
      (client.calls.find? (·.id = id)).map Call.caller
  | .opened socket | .error socket | .closed socket | .message socket _ => client.openers[socket]?
  | _ => none

/-- No retry is scheduled, no socket becomes ready and no request is settled. -/
structure Spares (client next : SerialClient) : Prop where
  generation : next.reconnectLoop.generation = client.reconnectLoop.generation
  timers : next.timers = client.timers
  ready : ∀ socket, next.readySocket = some socket → client.readySocket = some socket
  pending : next.pending = client.pending
  settlements : next.settlements = client.settlements

theorem Spares.refl (client : SerialClient) : client.Spares client :=
  ⟨rfl, rfl, fun _ hready => hready, rfl, rfl⟩

theorem Spares.trans {middle next : SerialClient} (h : client.Spares middle)
    (h' : middle.Spares next) : client.Spares next where
  generation := h'.generation.trans h.generation
  timers := h'.timers.trans h.timers
  ready := fun socket hready => h.ready socket (h'.ready socket hready)
  pending := h'.pending.trans h.pending
  settlements := h'.settlements.trans h.settlements

theorem spares_rejectSocketHandshake (socket : SocketId) :
    client.Spares (client.rejectSocketHandshake socket) := by
  unfold rejectSocketHandshake
  split
  · exact Spares.refl client
  · split
    · exact ⟨rfl, rfl, fun _ hready => hready, rfl, rfl⟩
    · exact Spares.refl client

theorem spares_rejectPending (hpending : client.pending = []) :
    client.Spares client.rejectPending where
  generation := rfl
  timers := rfl
  ready := fun _ hready => hready
  pending := hpending.symm
  settlements := by simp [rejectPending, hpending]

theorem spares_drop (socket : SocketId) :
    client.Spares ((client.setListening socket false).terminate socket) := by
  obtain ⟨sockets, outbox, hdrop⟩ := drop_eq socket client
  rw [hdrop]
  exact ⟨rfl, rfl, fun _ hready => hready, rfl, rfl⟩

theorem spares_runEnds {generation : ℕ} {succeeded : Bool}
    (hcancelled : generation ≠ client.reconnectLoop.generation) :
    client.Spares (client.runEnds generation succeeded) := by
  unfold runEnds
  rw [if_neg (fun hcurrent => hcancelled hcurrent.1)]
  exact ⟨rfl, rfl, fun _ hready => hready, rfl, rfl⟩

theorem spares_openThrows {generation : ℕ} {socket : SocketId}
    (hcaller : call.caller = .run generation)
    (hcancelled : generation ≠ client.reconnectLoop.generation) (hpending : client.pending = []) :
    client.Spares (client.openThrows call socket) := by
  unfold SerialClient.openThrows
  have hleft : client.Spares { client.endCall call.id with
      socket :=
        if (client.endCall call.id).socket = some socket then none
        else (client.endCall call.id).socket
      readySocket :=
        if (client.endCall call.id).readySocket = some socket then none
        else (client.endCall call.id).readySocket
      actor := none } := by
    refine ⟨rfl, rfl, ?_, rfl, rfl⟩
    intro own hown
    dsimp only at hown
    split at hown
    · simp at hown
    · exact hown
  have hhandshake := hleft.trans (spares_rejectSocketHandshake socket)
  have hrejected := hhandshake.trans (spares_rejectPending (hhandshake.pending.trans hpending))
  have hdropped := hrejected.trans (spares_drop socket)
  rw [hcaller]
  refine hdropped.trans (spares_runEnds ?_)
  rw [hdropped.generation]
  exact hcancelled

/-- A cancelled attempt belongs to an older version. -/
theorem Connected.stale (h : client.Connected) (hcall : call ∈ client.calls) {generation : ℕ}
    (hcaller : call.caller = .run generation)
    (hcancelled : generation ≠ client.reconnectLoop.generation) :
    call.version ≠ client.connectionVersion := by
  intro hversion
  apply hcancelled
  have hgeneration : client.reconnectLoop.generation = client.connectionVersion :=
    h.course.generation
  cases h.course.callers call.key (key_mem hcall) with
  | inl hrun =>
      have hown : call.caller = .run call.version := hrun
      rw [hcaller] at hown
      rw [hgeneration, ← hversion]
      exact Caller.run.inj hown
  | inr hexplicit =>
      have hown : call.caller = .reconnectSocket := hexplicit.1
      rw [hcaller] at hown
      simp at hown

/-- The socket of a cancelled attempt is not the current one. -/
theorem Connected.socket_ne (h : client.Connected) {socket : SocketId} {generation : ℕ}
    (hopener : client.openers[socket]? = some (.run generation))
    (hcancelled : generation ≠ client.reconnectLoop.generation) :
    client.socket ≠ some socket := by
  intro hsocket
  have hgeneration : client.reconnectLoop.generation = client.connectionVersion :=
    h.course.generation
  rw [hgeneration] at hcancelled
  exact hcancelled (h.sockets.owner socket hsocket generation hopener)

theorem Connected.spares_resume (h : client.Connected) (hcall : call ∈ client.calls)
    {generation : ℕ} (hcaller : call.caller = .run generation)
    (hcancelled : generation ≠ client.reconnectLoop.generation) :
    client.Spares (client.resume call) := by
  have hstale := h.stale hcall hcaller hcancelled
  have hpending : ∀ {socket expected awaiting},
      call.stage = .opening socket expected awaiting → client.pending = [] :=
    fun hstage => (h.sockets.silent ((h.sockets.fits call hcall).overtaken hstage hstale)).1
  unfold SerialClient.resume
  split
  · rename_i socket expected hstage
    unfold SerialClient.sayHello
    rw [if_pos (Or.inr (Or.inl hstale))]
    exact spares_openThrows hcaller hcancelled (hpending hstage)
  · rename_i socket expected actor accepted hstage
    exact absurd ((h.sockets.fits call hcall).conversing hstage rfl).2.1 hstale
  · rename_i socket expected actor result hstage
    exact absurd ((h.sockets.fits call hcall).conversing hstage rfl).2.1 hstale
  · rename_i socket expected hstage
    exact spares_openThrows hcaller hcancelled (hpending hstage)
  · exact Spares.refl client

theorem spares_failCalls (waits : Stage → Bool) : client.Spares (client.failCalls waits) :=
  ⟨rfl, rfl, fun _ hready => hready, rfl, rfl⟩

theorem spares_configured {generation : ℕ} (hcaller : call.caller = .run generation)
    (hcancelled : generation ≠ client.reconnectLoop.generation)
    (response : Option StatusResponse) : client.Spares (client.configured call response) := by
  unfold SerialClient.configured
  split
  · rw [hcaller]
    have hended : client.Spares (client.endCall call.id) :=
      ⟨rfl, rfl, fun _ hready => hready, rfl, rfl⟩
    exact hended.trans (spares_runEnds hcancelled)
  · rename_i refreshed hrefreshed
    obtain ⟨response, _, hinstall⟩ := Option.bind_eq_some_iff.mp hrefreshed
    have hinstalled : client.Spares refreshed := by
      unfold SerialClient.install at hinstall
      split at hinstall
      · simp at hinstall
      · split at hinstall
        · cases hinstall
          exact ⟨rfl, rfl, fun _ hready => hready, rfl, rfl⟩
        · simp at hinstall
    exact hinstalled.trans ⟨rfl, rfl, fun _ hready => hready, rfl, rfl⟩

theorem Connected.spares_historyLoaded (h : client.Connected) (hcall : call ∈ client.calls)
    {generation : ℕ} (hcaller : call.caller = .run generation)
    (hcancelled : generation ≠ client.reconnectLoop.generation) :
    client.Spares (client.historyLoaded call) := by
  unfold SerialClient.historyLoaded
  rw [if_pos (Or.inr (h.stale hcall hcaller hcancelled)), hcaller]
  have hended : client.Spares (client.endCall call.id) :=
    ⟨rfl, rfl, fun _ hready => hready, rfl, rfl⟩
  exact hended.trans (spares_runEnds hcancelled)

theorem Connected.spares_onSocketError (h : client.Connected) {socket : SocketId}
    (htimely : client.Timely socket) (hsocket : client.socket ≠ some socket) :
    client.Spares (client.onSocketError socket) := by
  have hpending : client.pending = [] := by
    have hsilent := h.sockets.silent fun own hown => by
      cases htimely own hown with
      | inl hsame => exact absurd (hsame ▸ hown) hsocket
      | inr hconnecting =>
          intro hup
          cases hup with
          | inl hopened => simp [hconnecting] at hopened
          | inr hlistening => exact h.sockets.listen own hlistening hconnecting
    exact hsilent.1
  unfold SerialClient.onSocketError
  split
  · have hhandshake := @spares_rejectSocketHandshake client socket
    exact hhandshake.trans (spares_rejectPending (hhandshake.pending.trans hpending))
  · exact Spares.refl client

theorem Connected.spares (h : client.Connected) {event : Event} {next : SerialClient}
    (hundisturbed : client.Undisturbed event) (hstep : SerialClient.step event client = some next)
    {generation : ℕ} (horigin : client.origin event = some (.run generation))
    (hcancelled : generation ≠ client.reconnectLoop.generation) : client.Spares next := by
  unfold SerialClient.step at hstep
  split at hstep
  · simp at hstep
  · cases event with
    | timer id =>
        obtain ⟨timer, hfind, _⟩ := Option.map_eq_some_iff.mp hstep
        simp only [origin, hfind, Option.map_some, Option.some.injEq, Caller.run.injEq] at horigin
        have hcurrent := (h.course.timer_of_mem (List.mem_of_find?_eq_some hfind)).2.2
        have hgeneration := h.course.generation
        exact absurd (horigin.symm.trans (hcurrent.trans hgeneration.symm)) hcancelled
    | configured id response =>
        simp only [handle] at hstep
        split at hstep
        · rename_i call hfind
          obtain ⟨_, hnext⟩ := Option.ite_none_right_eq_some.mp hstep
          cases hnext
          simp only [origin, hfind, Option.map_some, Option.some.injEq] at horigin
          exact spares_configured horigin hcancelled response
        · simp at hstep
    | historyLoaded id =>
        simp only [handle] at hstep
        split at hstep
        · rename_i call hfind
          obtain ⟨_, hnext⟩ := Option.ite_none_right_eq_some.mp hstep
          cases hnext
          simp only [origin, hfind, Option.map_some, Option.some.injEq] at horigin
          exact h.spares_historyLoaded (find_call hfind).1 horigin hcancelled
        · simp at hstep
    | refreshed response => simp [origin] at horigin
    | opened socket =>
        obtain ⟨_, hnext⟩ := Option.ite_none_right_eq_some.mp hstep
        cases hnext
        exact ⟨rfl, rfl, fun _ hready => hready, rfl, rfl⟩
    | error socket =>
        simp only [handle] at hstep
        split at hstep
        · rename_i hlistening
          cases hstep
          exact h.spares_onSocketError (hundisturbed hlistening) (h.socket_ne horigin hcancelled)
        · cases hstep
          exact spares_failCalls _
    | closed socket =>
        simp only [handle, listening_setReadyState] at hstep
        split at hstep
        · simp at hstep
        · split at hstep
          · cases hstep
            unfold SerialClient.onSocketClose
            rw [if_pos]
            · exact ⟨rfl, rfl, fun _ hready => hready, rfl, rfl⟩
            · exact Or.inr (h.socket_ne horigin hcancelled)
          · cases hstep
            exact ⟨rfl, rfl, fun _ hready => hready, rfl, rfl⟩
    | message socket frame =>
        obtain ⟨_, hnext⟩ := Option.ite_none_right_eq_some.mp hstep
        cases hnext
        unfold SerialClient.onSocketMessage
        rw [if_pos (h.socket_ne horigin hcancelled)]
        exact Spares.refl client
    | timeout id =>
        simp only [handle] at hstep
        split at hstep
        · split at hstep
          · split at hstep
            · cases hstep
              exact ⟨rfl, rfl, fun _ hready => hready, rfl, rfl⟩
            · simp at hstep
          · simp at hstep
        · simp at hstep
    | sendFailed requestId => simp [origin] at horigin
    | request uncertain codes => simp [origin] at horigin
    | reconnectSocket => simp [origin] at horigin
    | stop => simp [origin] at horigin
    | resume id =>
        simp only [handle] at hstep
        split at hstep
        · rename_i call hfind
          obtain ⟨_, hnext⟩ := Option.ite_none_right_eq_some.mp hstep
          cases hnext
          simp only [origin, hfind, Option.map_some, Option.some.injEq] at horigin
          exact h.spares_resume (find_call hfind).1 horigin hcancelled
        · simp at hstep

/-- In every run in which nothing interferes with the current connection, the client works
towards one, and what a cancelled attempt still does leaves the newer one alone. -/
theorem works_towards_connection {response : StatusResponse} {actor : Actor}
    (h : GuardedRuns.Reaches SerialClient.step (fun event client => client.Undisturbed event)
      (started response actor) client) :
    client.Works ∧
      ∀ event next, client.Undisturbed event → SerialClient.step event client = some next →
        ∀ generation, client.origin event = some (.run generation) →
          generation ≠ client.reconnectLoop.generation → client.Spares next := by
  have hconnected := connected_of_reaches h
  refine ⟨hconnected.works, ?_⟩
  intro event next hundisturbed hstep generation horigin hcancelled
  exact hconnected.spares hundisturbed hstep horigin hcancelled

/-- A daemon without ports -/
def portless : StatusResponse := ⟨7, 8, serialProtocolVersion, []⟩

def desktopUser : Actor := ⟨"desktop", "desktop", .human⟩

/-- The configuration arrives too late for an attempt which `reconnectSocket` has overtaken. -/
theorem works_towards_connection_overtaken :
    ∃ client next, GuardedRuns.follow SerialClient.step [.closed 0, .timer 1, .reconnectSocket]
        (started portless desktopUser) = some client ∧
      SerialClient.step (.configured 2 none) client = some next ∧
        client.Works ∧ client.Spares next := by
  have hadmitted : GuardedRuns.Admitted SerialClient.step
      (fun event client => client.Undisturbed event) [.closed 0, .timer 1, .reconnectSocket]
      (started portless desktopUser) := by
    decide
  have hruns : (((GuardedRuns.follow SerialClient.step [.closed 0, .timer 1, .reconnectSocket]
      (started portless desktopUser)).bind fun client =>
        (SerialClient.step (.configured 2 none) client).map fun _ =>
          (client.origin (.configured 2 none), client.reconnectLoop.generation)) =
        some (some (.run 1), 2)) := by
    decide
  obtain ⟨client, hclient, hnext⟩ := Option.bind_eq_some_iff.mp hruns
  obtain ⟨next, hnext, hfacts⟩ := Option.map_eq_some_iff.mp hnext
  simp only [Prod.mk.injEq] at hfacts
  obtain ⟨horigin, hgeneration⟩ := hfacts
  have hwhole := works_towards_connection (GuardedRuns.reaches_of_follow hadmitted hclient)
  refine ⟨client, next, hclient, hnext, hwhole.1, ?_⟩
  exact hwhole.2 (.configured 2 none) next trivial hnext 1 horigin (by simp [hgeneration])

/-- The user changes the configuration twice.  The failed `openSocket` of the first change
schedules a retry although the second one is under way, and the retry replaces the socket
which has become ready meanwhile. -/
def overlappingChanges : List Event := [
  .reconnectSocket, .reconnectSocket, .error 1, .resume 1, .opened 2, .resume 2,
  .message 2 (.welcome serialProtocolVersion 7 8 (some desktopUser)),
  .message 2 (.result 4 (.helloAccepted (some desktopUser))), .resume 2,
  .message 2 (.result 5 (.attached (some []))), .resume 2,
  .timer 3, .configured 6 (some portless), .historyLoaded 6]

theorem overlapping_changes_replace_ready_socket :
    ¬∀ client, GuardedRuns.Reaches SerialClient.step (fun _ _ => True)
      (started portless desktopUser) client → client.Works := by
  intro hworks
  have hrun : (GuardedRuns.follow SerialClient.step overlappingChanges
      (started portless desktopUser)).map (fun client => (client.readySocket, client.socket)) =
        some (some 2, some 3) := by
    decide +kernel
  obtain ⟨client, hclient, hsockets⟩ := Option.map_eq_some_iff.mp hrun
  simp only [Prod.mk.injEq] at hsockets
  have hready := (hworks client (GuardedRuns.reaches_any hclient)).ready 2 hsockets.1
  simp [hsockets.2] at hready

end SerialClient

end SerialPlatform.Desktop
